/-!
# System errors

What the operating system answers when a call fails, and the texts that go with it. The long text
is the C library's, with the number behind it; the short one, used where the signal mask cannot be
changed, gives the symbolic name first.
-/

set_option autoImplicit false

namespace CxxScript

/-- The number of a system error. -/
structure Errno where
  code : Int
  deriving DecidableEq, Repr

namespace Errno

/-- The system keeps this to itself. -/
def notPermitted : Errno := ⟨1⟩
/-- There is nothing of that name. -/
def noEntry : Errno := ⟨2⟩
/-- There is no process of that number. -/
def noProcess : Errno := ⟨3⟩
/-- There is no device behind the file. -/
def noDevice : Errno := ⟨6⟩
/-- The arguments take too much room. -/
def argumentsTooLong : Errno := ⟨7⟩
/-- The file is no program. -/
def notExecutableFormat : Errno := ⟨8⟩
/-- The descriptor cannot be used in this way. -/
def badDescriptor : Errno := ⟨9⟩
/-- The file may not be used in this way. -/
def accessDenied : Errno := ⟨13⟩
/-- The system itself makes use of it. -/
def busy : Errno := ⟨16⟩
/-- Something of that name is there already. -/
def exists_ : Errno := ⟨17⟩
/-- A directory was needed. -/
def notDirectory : Errno := ⟨20⟩
/-- A file was needed. -/
def isDirectory : Errno := ⟨21⟩
/-- The arguments make no sense. -/
def invalidArgument : Errno := ⟨22⟩
/-- There is no room left. -/
def noSpace : Errno := ⟨28⟩
/-- A name or the whole path is too long. -/
def nameTooLong : Errno := ⟨36⟩
/-- The directory is not empty. -/
def notEmpty : Errno := ⟨39⟩
/-- Too many links on the way. -/
def tooManyLinks : Errno := ⟨40⟩

/-- The C library's descriptions. -/
def descriptions : List (Int × String) := [
  (0, "Success"),
  (1, "Operation not permitted"),
  (2, "No such file or directory"),
  (3, "No such process"),
  (4, "Interrupted system call"),
  (5, "Input/output error"),
  (6, "No such device or address"),
  (7, "Argument list too long"),
  (8, "Exec format error"),
  (9, "Bad file descriptor"),
  (10, "No child processes"),
  (11, "Resource temporarily unavailable"),
  (12, "Cannot allocate memory"),
  (13, "Permission denied"),
  (14, "Bad address"),
  (15, "Block device required"),
  (16, "Device or resource busy"),
  (17, "File exists"),
  (18, "Invalid cross-device link"),
  (19, "No such device"),
  (20, "Not a directory"),
  (21, "Is a directory"),
  (22, "Invalid argument"),
  (23, "Too many open files in system"),
  (24, "Too many open files"),
  (25, "Inappropriate ioctl for device"),
  (26, "Text file busy"),
  (27, "File too large"),
  (28, "No space left on device"),
  (29, "Illegal seek"),
  (30, "Read-only file system"),
  (31, "Too many links"),
  (32, "Broken pipe"),
  (33, "Numerical argument out of domain"),
  (34, "Numerical result out of range"),
  (35, "Resource deadlock avoided"),
  (36, "File name too long"),
  (37, "No locks available"),
  (38, "Function not implemented"),
  (39, "Directory not empty"),
  (40, "Too many levels of symbolic links"),
  (42, "No message of desired type"),
  (43, "Identifier removed"),
  (44, "Channel number out of range"),
  (45, "Level 2 not synchronized"),
  (46, "Level 3 halted"),
  (47, "Level 3 reset"),
  (48, "Link number out of range"),
  (49, "Protocol driver not attached"),
  (50, "No CSI structure available"),
  (51, "Level 2 halted"),
  (52, "Invalid exchange"),
  (53, "Invalid request descriptor"),
  (54, "Exchange full"),
  (55, "No anode"),
  (56, "Invalid request code"),
  (57, "Invalid slot"),
  (59, "Bad font file format"),
  (60, "Device not a stream"),
  (61, "No data available"),
  (62, "Timer expired"),
  (63, "Out of streams resources"),
  (64, "Machine is not on the network"),
  (65, "Package not installed"),
  (66, "Object is remote"),
  (67, "Link has been severed"),
  (68, "Advertise error"),
  (69, "Srmount error"),
  (70, "Communication error on send"),
  (71, "Protocol error"),
  (72, "Multihop attempted"),
  (73, "RFS specific error"),
  (74, "Bad message"),
  (75, "Value too large for defined data type"),
  (76, "Name not unique on network"),
  (77, "File descriptor in bad state"),
  (78, "Remote address changed"),
  (79, "Can not access a needed shared library"),
  (80, "Accessing a corrupted shared library"),
  (81, ".lib section in a.out corrupted"),
  (82, "Attempting to link in too many shared libraries"),
  (83, "Cannot exec a shared library directly"),
  (84, "Invalid or incomplete multibyte or wide character"),
  (85, "Interrupted system call should be restarted"),
  (86, "Streams pipe error"),
  (87, "Too many users"),
  (88, "Socket operation on non-socket"),
  (89, "Destination address required"),
  (90, "Message too long"),
  (91, "Protocol wrong type for socket"),
  (92, "Protocol not available"),
  (93, "Protocol not supported"),
  (94, "Socket type not supported"),
  (95, "Operation not supported"),
  (96, "Protocol family not supported"),
  (97, "Address family not supported by protocol"),
  (98, "Address already in use"),
  (99, "Cannot assign requested address"),
  (100, "Network is down"),
  (101, "Network is unreachable"),
  (102, "Network dropped connection on reset"),
  (103, "Software caused connection abort"),
  (104, "Connection reset by peer"),
  (105, "No buffer space available"),
  (106, "Transport endpoint is already connected"),
  (107, "Transport endpoint is not connected"),
  (108, "Cannot send after transport endpoint shutdown"),
  (109, "Too many references: cannot splice"),
  (110, "Connection timed out"),
  (111, "Connection refused"),
  (112, "Host is down"),
  (113, "No route to host"),
  (114, "Operation already in progress"),
  (115, "Operation now in progress"),
  (116, "Stale file handle"),
  (117, "Structure needs cleaning"),
  (118, "Not a XENIX named type file"),
  (119, "No XENIX semaphores available"),
  (120, "Is a named type file"),
  (121, "Remote I/O error"),
  (122, "Disk quota exceeded"),
  (123, "No medium found"),
  (124, "Wrong medium type"),
  (125, "Operation canceled"),
  (126, "Required key not available"),
  (127, "Key has expired"),
  (128, "Key has been revoked"),
  (129, "Key was rejected by service"),
  (130, "Owner died"),
  (131, "State not recoverable"),
  (132, "Operation not possible due to RF-kill"),
  (133, "Memory page has hardware error")]

/-- The C library's description of an error. -/
def description (e : Errno) : String :=
  (descriptions.lookup e.code).getD s!"Unknown error {e.code}"

/-- The symbolic names, each with the kernel's description. -/
def symbolicDescriptions : List (Int × String) := [
  (1, "EPERM: Operation not permitted"),
  (2, "ENOENT: No such file or directory"),
  (3, "ESRCH: No such process"),
  (4, "EINTR: Interrupted system call"),
  (5, "EIO: I/O error"),
  (6, "ENXIO: No such device or address"),
  (7, "E2BIG: Argument list too long"),
  (8, "ENOEXEC: Exec format error"),
  (9, "EBADF: Bad file number"),
  (10, "ECHILD: No child processes"),
  (11, "EAGAIN: Try again"),
  (12, "ENOMEM: Out of memory"),
  (13, "EACCES: Permission denied"),
  (14, "EFAULT: Bad address"),
  (15, "ENOTBLK: Block device required"),
  (16, "EBUSY: Device or resource busy"),
  (17, "EEXIST: File exists"),
  (18, "EXDEV: Cross-device link"),
  (19, "ENODEV: No such device"),
  (20, "ENOTDIR: Not a directory"),
  (21, "EISDIR: Is a directory"),
  (22, "EINVAL: Invalid argument"),
  (23, "ENFILE: File table overflow"),
  (24, "EMFILE: Too many open files"),
  (25, "ENOTTY: Not a typewriter"),
  (26, "ETXTBSY: Text file busy"),
  (27, "EFBIG: File too large"),
  (28, "ENOSPC: No space left on device"),
  (29, "ESPIPE: Illegal seek"),
  (30, "EROFS: Read-only file system"),
  (31, "EMLINK: Too many links"),
  (32, "EPIPE: Broken pipe"),
  (33, "EDOM: Math argument out of domain of func"),
  (34, "ERANGE: Math result not representable"),
  (35, "EDEADLK: Resource deadlock would occur"),
  (36, "ENAMETOOLONG: File name too long"),
  (37, "ENOLCK: No record locks available"),
  (38, "ENOSYS: Function not implemented"),
  (39, "ENOTEMPTY: Directory not empty"),
  (40, "ELOOP: Too many symbolic links encountered"),
  (42, "ENOMSG: No message of desired type"),
  (43, "EIDRM: Identifier removed"),
  (44, "ECHRNG: Channel number out of range"),
  (45, "EL2NSYNC: Level 2 not synchronized"),
  (46, "EL3HLT: Level 3 halted"),
  (47, "EL3RST: Level 3 reset"),
  (48, "ELNRNG: Link number out of range"),
  (49, "EUNATCH: Protocol driver not attached"),
  (50, "ENOCSI: No CSI structure available"),
  (51, "EL2HLT: Level 2 halted"),
  (52, "EBADE: Invalid exchange"),
  (53, "EBADR: Invalid request descriptor"),
  (54, "EXFULL: Exchange full"),
  (55, "ENOANO: No anode"),
  (56, "EBADRQC: Invalid request code"),
  (57, "EBADSLT: Invalid slot"),
  (59, "EBFONT: Bad font file format"),
  (60, "ENOSTR: Device not a stream"),
  (61, "ENODATA: No data available"),
  (62, "ETIME: Timer expired"),
  (63, "ENOSR: Out of streams resources"),
  (64, "ENONET: Machine is not on the network"),
  (65, "ENOPKG: Package not installed"),
  (66, "EREMOTE: Object is remote"),
  (67, "ENOLINK: Link has been severed"),
  (68, "EADV: Advertise error"),
  (69, "ESRMNT: Srmount error"),
  (70, "ECOMM: Communication error on send"),
  (71, "EPROTO: Protocol error"),
  (72, "EMULTIHOP: Multihop attempted"),
  (73, "EDOTDOT: RFS specific error"),
  (74, "EBADMSG: Not a data message"),
  (75, "EOVERFLOW: Value too large for defined data type"),
  (76, "ENOTUNIQ: Name not unique on network"),
  (77, "EBADFD: File descriptor in bad state"),
  (78, "EREMCHG: Remote address changed"),
  (79, "ELIBACC: Can not access a needed shared library"),
  (80, "ELIBBAD: Accessing a corrupted shared library"),
  (81, "ELIBSCN: .lib section in a.out corrupted"),
  (82, "ELIBMAX: Attempting to link in too many shared libraries"),
  (83, "ELIBEXEC: Cannot exec a shared library directly"),
  (84, "EILSEQ: Illegal byte sequence"),
  (85, "ERESTART: Interrupted system call should be restarted"),
  (86, "ESTRPIPE: Streams pipe error"),
  (87, "EUSERS: Too many users"),
  (88, "ENOTSOCK: Socket operation on non-socket"),
  (89, "EDESTADDRREQ: Destination address required"),
  (90, "EMSGSIZE: Message too long"),
  (91, "EPROTOTYPE: Protocol wrong type for socket"),
  (92, "ENOPROTOOPT: Protocol not available"),
  (93, "EPROTONOSUPPORT: Protocol not supported"),
  (94, "ESOCKTNOSUPPORT: Socket type not supported"),
  (95, "EOPNOTSUPP: Operation not supported on transport endpoint"),
  (96, "EPFNOSUPPORT: Protocol family not supported"),
  (97, "EAFNOSUPPORT: Address family not supported by protocol"),
  (98, "EADDRINUSE: Address already in use"),
  (99, "EADDRNOTAVAIL: Cannot assign requested address"),
  (100, "ENETDOWN: Network is down"),
  (101, "ENETUNREACH: Network is unreachable"),
  (102, "ENETRESET: Network dropped connection because of reset"),
  (103, "ECONNABORTED: Software caused connection abort"),
  (104, "ECONNRESET: Connection reset by peer"),
  (105, "ENOBUFS: No buffer space available"),
  (106, "EISCONN: Transport endpoint is already connected"),
  (107, "ENOTCONN: Transport endpoint is not connected"),
  (108, "ESHUTDOWN: Cannot send after transport endpoint shutdown"),
  (109, "ETOOMANYREFS: Too many references: cannot splice"),
  (110, "ETIMEDOUT: Connection timed out"),
  (111, "ECONNREFUSED: Connection refused"),
  (112, "EHOSTDOWN: Host is down"),
  (113, "EHOSTUNREACH: No route to host"),
  (114, "EALREADY: Operation already in progress"),
  (115, "EINPROGRESS: Operation now in progress"),
  (116, "ESTALE: Stale file handle"),
  (117, "EUCLEAN: Structure needs cleaning"),
  (118, "ENOTNAM: Not a XENIX named type file"),
  (119, "ENAVAIL: No XENIX semaphores available"),
  (120, "EISNAM: Is a named type file"),
  (121, "EREMOTEIO: Remote I/O error"),
  (122, "EDQUOT: Quota exceeded"),
  (123, "ENOMEDIUM: No medium found"),
  (124, "EMEDIUMTYPE: Wrong medium type"),
  (125, "ECANCELED: Operation canceled"),
  (126, "ENOKEY: Required key not available"),
  (127, "EKEYEXPIRED: Key has expired"),
  (128, "EKEYREVOKED: Key has been revoked"),
  (129, "EKEYREJECTED: Key was rejected by service"),
  (130, "EOWNERDEAD: Owner died"),
  (131, "ENOTRECOVERABLE: State not recoverable"),
  (132, "ERFKILL: Operation not possible due to RF-kill"),
  (133, "EHWPOISON: Memory page has hardware error")]

/-- The symbolic name of an error and its description. -/
def symbolicText (e : Errno) : String :=
  (symbolicDescriptions.lookup e.code).getD "UnknownErrno: Unknown errno"

end Errno

/-- Why an operation on files or programs failed: the system refused it, or it never reached the
system because a text could not be passed on or be read. -/
inductive IoError where
  | system (e : Errno)
  | nulInName
  | nulInArgument
  | notText
  | noParent
  deriving DecidableEq, Repr

/-- The text of a failure. -/
def IoError.message : IoError → String
  | .system e => s!"{e.description} (os error {e.code})"
  | .nulInName => "file name contained an unexpected NUL byte"
  | .nulInArgument => "nul byte found in provided data"
  | .notText => "stream did not contain valid UTF-8"
  | .noParent => "failed to create whole tree"

end CxxScript

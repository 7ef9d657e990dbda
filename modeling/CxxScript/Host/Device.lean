import CxxScript.Host.Errno
import CxxScript.Path.Lexical

/-!
# Devices

A device stands among the files but keeps nothing: what is written to it is gone, or is refused.
`opening` says which devices can be opened, `refusal?` which of them take no bytes. The devices of
the descriptors stand for whatever the process that opens them writes to.
-/

set_option autoImplicit false

namespace CxxScript

/-- A device. -/
inductive Device where
  /-- Holds nothing and swallows everything. -/
  | null
  /-- Swallows everything; reading from it has no end. -/
  | endless
  /-- Never has room; reading from it has no end. -/
  | full
  /-- The terminal in control of the process. There is none. -/
  | terminal
  /-- What a descriptor of the process is pointed at. -/
  | descriptor (n : Nat)
  deriving DecidableEq, Repr

namespace Device

/-- Where the devices stand, below `/dev`. -/
def table : List (Location × Device) := [
  (["null"], .null), (["zero"], .endless), (["random"], .endless), (["urandom"], .endless),
  (["full"], .full), (["tty"], .terminal), (["stdin"], .descriptor 0), (["stdout"], .descriptor 1),
  (["stderr"], .descriptor 2)] ++
  (List.range 10).map fun n => (["fd", toString n], .descriptor n)

/-- The outcome of opening a device. Only the three usual descriptors of a process are sure to be
there. -/
def opening : Device → Except IoError Unit
  | .terminal => .error (.system .noDevice)
  | .descriptor n => if n ≤ 2 then .ok () else .error (.system .noEntry)
  | .null | .endless | .full => .ok ()

/-- Why a device takes no bytes, if it takes none. -/
def refusal? : Device → Option Errno
  | .full => some .noSpace
  | _ => none

/-- Whether a device is the same for every process that opens it. -/
def isFixed : Device → Bool
  | .descriptor _ => false
  | _ => true

end Device

end CxxScript

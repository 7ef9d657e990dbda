import CxxScript.Text.Blank

/-!
# Include lines

An include line names a header, either beside the file (`"…"`) or among the system's (`<…>`). The
recogniser takes the line apart from the left; nothing after the closing delimiter matters. Some
well-known system headers need flags beyond the include itself: literal ones, or those of a package.
-/

set_option autoImplicit false

namespace CxxScript

namespace Source

/-- The header an include line names. -/
inductive Include where
  | beside (target : String)
  | system (target : String)
  deriving DecidableEq, Repr

namespace Include

/-- What stands behind `expected` at the start of a text. -/
def after? (expected s : List Char) : Option (List Char) :=
  if expected.isPrefixOf s then some (s.drop expected.length) else none

/-- The non-empty text before the first `close`, if there is one. -/
def until? (close : Char) (s : List Char) : Option String :=
  match s.takeWhile (· ≠ close), s.dropWhile (· ≠ close) with
  | [], _ => none
  | _, [] => none
  | target, _ => some (String.ofList target)

/-- What an opening delimiter and the text behind it name. -/
def ofDelimited? : List Char → Option Include
  | '"' :: rest => (until? '"' rest).map .beside
  | '<' :: rest => (until? '>' rest).map .system
  | _ => none

/-- The header a line includes: gaps, `#`, gaps, `include`, gaps and a delimited target. -/
def ofLine? (line : List Char) : Option Include := do
  let rest ← after? ['#'] (line.dropWhile Text.isGap)
  let rest ← after? "include".toList (rest.dropWhile Text.isGap)
  ofDelimited? (rest.dropWhile Text.isGap)

end Include

end Source

namespace Package

/-- What including a system header adds to the build. -/
inductive Implied where
  | flags (text : String)
  | package (name : String)
  deriving DecidableEq, Repr

namespace Implied

/-- The headers that imply something. -/
def table : List (String × Implied) := [
  ("alsa/asoundlib.h", .package "alsa"),
  ("asoundlib.h", .package "alsa"),
  ("boost/filesystem.hpp", .flags "-lboost_filesystem -lboost_system"),
  ("boost/program_options.hpp", .flags "-lboost_program_options"),
  ("boost/regex.hpp", .flags "-lboost_regex"),
  ("boost/system/error_code.hpp", .flags "-lboost_system"),
  ("boost/thread.hpp", .flags "-lboost_thread -lboost_system"),
  ("curl/curl.h", .package "libcurl"),
  ("pthread.h", .flags "-pthread"),
  ("thread", .flags "-pthread"),
  ("zlib.h", .package "zlib")]

/-- What a header implies. -/
def ofHeader? (header : String) : Option Implied := table.lookup header

end Implied

end Package

end CxxScript

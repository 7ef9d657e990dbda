import CxxScript.Proofs.Build.Agreeing
import CxxScript.Proofs.Build.Copying
import CxxScript.Proofs.Text.Json
import CxxScript.Proofs.Text.Utf8

/-!
# The record that was kept is the record that is found

What a record is written as is read as that record, `ofText?_text`, whatever characters its compiler
has and whenever it was made. So a record that has been stored is the one that is looked up next,
whatever the file held before, unless a device stands in its place, which keeps nothing:
`lookup_of_store`.
-/

set_option autoImplicit false

namespace CxxScript

/-! ## Whole files -/

/-- What has been written to a file stands in it, whatever it held before. -/
theorem Host.holds_of_write {m : Machine} {p : Path} {bytes : Bytes} {h h' : Host}
    (hwrite : (write m p bytes).run h = (.ok (), h')) : h'.files.Holds m.cwd p bytes := by
  unfold write at hwrite
  cases hcreate : h.files.create m.cwd p with
  | error cause =>
    have hrun : (create m p).run h = (.error cause, h) := run_change_error hcreate
    rw [run_bind_of_run hrun] at hwrite
    cases hwrite
  | ok opened =>
    have hrun : (create m p).run h = (.ok opened.1, { h with files := opened.2 }) :=
      run_change_ok hcreate
    rw [run_bind_of_run hrun] at hwrite
    rcases Files.create_opened hcreate with ⟨executable, hfind⟩ | ⟨d, hfind⟩
    · have hget := Files.get?_of_find hfind (by simp)
      have happended := files_append_file hwrite hget
      exact .inl (Files.append_holds hfind happended)
    · have hget := Files.get?_of_find hfind (by simp)
      have hsame := files_append_device hwrite hget
      rw [Files.Holds, hsame]
      exact .inr ⟨opened.1, d, hfind⟩

namespace ToolchainRecord

open Host Text.Json

/-! ## Reading back what was written -/

/-- The members of the object that a record is written as. -/
def members (r : ToolchainRecord) : List (Option String × Text.Json) :=
  [(some "compiler", .string (some r.compiler)), (some "ccache", .bool r.ccache),
    (some "created_at", .natural r.createdAt.toNat)]

/-- A record behind its opening brace. -/
def body (r : ToolchainRecord) : List Char :=
  "\n  ".toList ++ (writeString "compiler" ++ ':' :: (' ' :: writeString r.compiler ++ ',' ::
    ("\n  ".toList ++ (writeString "ccache" ++ ':' ::
      (' ' :: (if r.ccache = true then "true".toList else "false".toList) ++ ',' ::
        ("\n  ".toList ++ (writeString "created_at" ++ ':' ::
          (' ' :: Text.Decimal.digits r.createdAt.toNat ++ '\n' :: '}' :: []))))))))

/-- The text of a record is a brace and the body. -/
theorem toList_text (r : ToolchainRecord) : r.text.toList = '{' :: r.body := by
  have hcompiler : "\x7b\n  \"compiler\": ".toList =
      '{' :: ("\n  ".toList ++ (writeString "compiler" ++ [':', ' '])) := by decide +kernel
  have hccache : ",\n  \"ccache\": ".toList =
      ',' :: ("\n  ".toList ++ (writeString "ccache" ++ [':', ' '])) := by decide +kernel
  have hcreated : ",\n  \"created_at\": ".toList =
      ',' :: ("\n  ".toList ++ (writeString "created_at" ++ [':', ' '])) := by decide +kernel
  have hend : "\n\x7d".toList = ['\n', '}'] := by decide +kernel
  unfold text body
  simp only [String.toList_append, String.toList_ofList, apply_ite String.toList]
  generalize writeString r.compiler = compiler
  generalize Text.Decimal.digits r.createdAt.toNat = createdAt
  rw [hcompiler, hccache, hcreated, hend]
  simp only [List.append_assoc, List.cons_append, List.nil_append]

/-- A record is read off its members. -/
theorem ofJson?_members (r : ToolchainRecord) : ofJson? (.object r.members) = some r := by
  have hsize : r.createdAt.toNat < UInt64.size := r.createdAt.toNat_lt
  simp [ofJson?, members, member?, ofValues?, hsize]

/-- A record is read off its text. -/
theorem ofText?_text (r : ToolchainRecord) : ofText? r.text = some r := by
  have hfuel : 2 * r.body.length + 3 = 2 * r.body.length - 1 + 4 := by
    have hlength : 0 < r.body.length := by simp [body]
    omega
  have hread : members? (2 * r.body.length + 3) r.body = some (r.members, []) := by
    rw [hfuel, body, members?_cons (reads_string r.compiler).space rfl,
      members?_cons (reads_bool r.ccache).space rfl,
      members?_last (reads_natural r.createdAt.toNat).space rfl]
    rfl
  rw [ofText?, toList_text, parse?_object hread, Option.bind_some, ofJson?_members]

/-! ## Storing and looking up -/

variable {m : Machine} {root : Path}

/-- A record is read off an encoded text as off the text. -/
theorem ofContent?_encode (text : String) :
    ofContent? (.ok (Text.Utf8.encode text)) = ofText? text := by
  have hdecode : Text.Utf8.decode? (Text.Utf8.encode text) = some text :=
    Text.Utf8.decode?_eq_some_iff.mpr rfl
  rw [ofContent?, Except.toOption, Option.bind_some, hdecode, Option.bind_some]

/-- What holds no text holds no record. -/
theorem ofContent?_of_not_text {content : Except IoError Bytes}
    (h : ∀ text, content ≠ .ok (Text.Utf8.encode text)) : ofContent? content = none := by
  cases content with
  | error cause => rfl
  | ok bytes =>
    rw [ofContent?, Except.toOption, Option.bind_some]
    cases hdecode : Text.Utf8.decode? bytes with
    | none => rfl
    | some text =>
      rw [Text.Utf8.decode?_eq_some_iff.mp hdecode] at h
      exact absurd rfl (h text)

/-- What was stored is looked up next, unless a device stands in the place of the record, which
keeps nothing. -/
theorem lookup_of_store {r : ToolchainRecord} {h h' : Host}
    (hstore : (store m root r).run h = (.ok (), h'))
    (hdevice : ∀ at_ d, h'.files.find m.cwd (place root) ≠ .ok (at_, .device d)) :
    ((lookup m root).run h').1 = some r := by
  have hholds : h'.files.Holds m.cwd (place root) (Text.Utf8.encode r.text) := by
    unfold store at hstore
    obtain ⟨made, h₁, hmade⟩ := exists_run (makeDirectories m root) h
    rw [run_bind_of_run hmade] at hstore
    cases made with
    | error cause => cases hstore
    | ok _ =>
      obtain ⟨written, h₂, hwrite⟩ :=
        exists_run (write m (place root) (Text.Utf8.encode r.text)) h₁
      dsimp only at hstore
      rw [run_bind_of_run hwrite] at hstore
      cases written with
      | error cause => cases hstore
      | ok _ =>
        cases hstore
        exact holds_of_write hwrite
  obtain ⟨hfound, -⟩ := lookup_outcome (m := m) root h'
  rcases hholds with hread | ⟨at_, d, hfind⟩
  · rw [hfound, hread, ofContent?_encode, ofText?_text]
  · exact absurd hfind (hdevice at_ d)

/-- Every record is read back as it was written, and the one that was stored is looked up next.
Looking up changes no file, and what can be looked up is told by the text in the file alone. -/
theorem store_then_lookup (m : Machine) (root : Path) :
    (∀ r : ToolchainRecord, ofText? r.text = some r) ∧
      (∀ (r : ToolchainRecord) (h h' : Host), (store m root r).run h = (.ok (), h') →
        (∀ at_ d, h'.files.find m.cwd (place root) ≠ .ok (at_, .device d)) →
        ((lookup m root).run h').1 = some r) ∧
      ∀ h : Host, ((lookup m root).run h).2.files = h.files ∧
        (∀ text, h.files.read m.cwd (place root) = .ok (Text.Utf8.encode text) →
          ((lookup m root).run h).1 = ofText? text) ∧
        ((∀ text, h.files.read m.cwd (place root) ≠ .ok (Text.Utf8.encode text)) →
          ((lookup m root).run h).1 = none) := by
  refine ⟨ofText?_text, ?_, ?_⟩
  · intro r h h' hstore hdevice
    exact lookup_of_store hstore hdevice
  · intro h
    obtain ⟨hfound, hfiles, -⟩ := lookup_outcome (m := m) root h
    refine ⟨hfiles, ?_, ?_⟩
    · intro text hread
      rw [hfound, hread, ofContent?_encode]
    · intro hnone
      rw [hfound, ofContent?_of_not_text hnone]

/-- A host whose record is no JSON. -/
def archive : Host where
  files :=
    { entries := [
        (["w"], .directory),
        (["w", "c"], .directory),
        (["w", "c", "toolchain.json"], .file (Text.Utf8.encode "not json") false)] }

/-- A record whose compiler is written with escapes, made at the last moment there is. -/
def lastRecord : ToolchainRecord where
  compiler := "g\"++\\\x01 \t\u00e9"
  ccache := true
  createdAt := 0xFFFFFFFFFFFFFFFF

/-- A record that is stored over a file that is no record is looked up, whatever is escaped in
it. -/
theorem store_then_lookup_archive : ∃ h',
    (store CompilationUnit.desk ⟨"c"⟩ lastRecord).run archive = (.ok (), h') ∧
      ((lookup CompilationUnit.desk ⟨"c"⟩).run h').1 = some lastRecord := by
  obtain ⟨-, hstore, -⟩ := store_then_lookup CompilationUnit.desk ⟨"c"⟩
  obtain ⟨r, h', hrun⟩ := exists_run (store CompilationUnit.desk ⟨"c"⟩ lastRecord) archive
  have hok : ((store CompilationUnit.desk ⟨"c"⟩ lastRecord).run archive).1 = .ok () := by
    decide +kernel
  have hfile : (((store CompilationUnit.desk ⟨"c"⟩ lastRecord).run archive).2.files.find
      CompilationUnit.desk.cwd (place ⟨"c"⟩)).toOption.map (·.2.isFile) = some true := by
    decide +kernel
  rw [hrun] at hok hfile
  cases hok
  refine ⟨h', hrun, hstore lastRecord archive h' hrun ?_⟩
  intro at_ d hfind
  rw [hfind] at hfile
  cases hfile

end ToolchainRecord

end CxxScript

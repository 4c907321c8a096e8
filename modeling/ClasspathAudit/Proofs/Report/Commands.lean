import Mathlib.Data.List.Forall2
import Mathlib.Tactic.Common
import ClasspathAudit.Proofs.Report.Escaping
import ClasspathAudit.Proofs.Text.Parts

/-
# Reports that are read as commands

A workflow reads its commands line by line and undoes the escapes in the data of each. From the
report on a run it gets one command for each violation, one for each project that could not be
analysed, and their number, and the data of the commands are the project and the message that they
are about. Messages are escaped, so any text can be told in one; this is `report_readsBack`.

Labels of projects are written as they are. A label may hold a line feed, because the names in a
descriptor only have to be more than blank; the report then tells of findings that there are not.
-/
namespace ClasspathAudit
namespace GitHubReport

/-! ### Reading commands -/

/-- The text that is left when escapes are undone. A `%` that starts none of them stands for
itself. -/
def unescape : List Char → List Char
  | '%' :: '2' :: '5' :: rest => '%' :: unescape rest
  | '%' :: '0' :: 'D' :: rest => '\r' :: unescape rest
  | '%' :: '0' :: 'A' :: rest => '\n' :: unescape rest
  | c :: rest => c :: unescape rest
  | [] => []

/-- What stands behind the first mark `::`. -/
def behindMark? : List Char → Option (List Char)
  | ':' :: ':' :: rest => some rest
  | _ :: rest => behindMark? rest
  | [] => none

/-- The data of the command in a line, which stand behind the second of its marks, where the first
starts the line. -/
def data? : List Char → Option (List Char)
  | ':' :: ':' :: rest => behindMark? rest
  | _ => none

/-- Whether a line is a command of which the data, with escapes undone, are the message on a
project. -/
def Tells (project : ProjectId) (message : String) (line : String) : Prop :=
  ∃ data, data? line.toList = some data ∧
    unescape data = (project.label ++ ": " ++ message).toList

/-- Whether the output on a run is a line for each violation, then one for each project that could
not be analysed, then one with the number of violations if there are any, and each line of the first
two kinds tells what it is about. No carriage return breaks a line in two. -/
def ReadsBack (s : RunSummary) (output : String) : Prop :=
  ∃ onViolations onFailures : List String,
    Text.splitOnChar '\n' output = onViolations ++ onFailures ++
      (if s.violations = [] then [] else ["::notice title=Summary::Found " ++
        Text.counted s.violations.length "dependency problem"]) ++ [""] ∧
    '\r' ∉ output.toList ∧
    List.Forall₂ (fun v => Tells v.project v.message) s.violations onViolations ∧
    List.Forall₂ (fun failure => Tells failure.project failure.report.message) s.failures
      onFailures

/-! ### Undoing escapes -/

/-- Whether a character ends a line. -/
def IsBreak (c : Char) : Prop := c = '\n' ∨ c = '\r'

instance : DecidablePred IsBreak :=
  fun _ => inferInstanceAs (Decidable (_ ∨ _))

/-- Whether a character is written as it is. -/
def IsPlain (c : Char) : Prop := c ≠ '%' ∧ ¬IsBreak c

instance : DecidablePred IsPlain :=
  fun _ => inferInstanceAs (Decidable (_ ∧ _))

/-- Whether a text is written as it is. -/
def IsPlainText (text : String) : Prop := ∀ c ∈ text.toList, IsPlain c

-- the characters of the text are gone through, not all characters there are
instance (text : String) : Decidable (IsPlainText text) :=
  decidable_of_iff (text.toList.Forall _) List.forall_iff_forall_mem

lemma unescape_cons {c : Char} (h : c ≠ '%') (rest : List Char) :
    unescape (c :: rest) = c :: unescape rest := by
  rw [unescape.eq_4] <;> rintro _ ⟨⟩ <;> exact absurd rfl h

lemma unescape_append_of_isPlain {text : List Char} (h : ∀ c ∈ text, IsPlain c)
    (rest : List Char) : unescape (text ++ rest) = text ++ unescape rest := by
  induction text with
  | nil => rfl
  | cons c text ih =>
    rw [List.forall_mem_cons] at h
    rw [List.cons_append, unescape_cons h.1.1, ih h.2, List.cons_append]

/-- Undoing the escapes one by one is reading by the table of them. -/
lemma unescape_eq_read (text : List Char) : unescape text = escapes.read text := by
  induction text using unescape.induct with
  | case1 rest ih =>
    exact (congrArg ('%' :: ·) ih).trans (Text.Escapes.read_escape
      (by decide : ('%', ['2', '5']) ∈ escapes.codes) rest).symm
  | case2 rest ih =>
    exact (congrArg ('\r' :: ·) ih).trans (Text.Escapes.read_escape
      (by decide : ('\r', ['0', 'D']) ∈ escapes.codes) rest).symm
  | case3 rest ih =>
    exact (congrArg ('\n' :: ·) ih).trans (Text.Escapes.read_escape
      (by decide : ('\n', ['0', 'A']) ∈ escapes.codes) rest).symm
  | case4 c rest hpercent hreturn hfeed ih =>
    rw [unescape.eq_4 _ _ hpercent hreturn hfeed, ih]
    by_cases hc : c = '%'
    · -- a mark behind which none of the codes stands
      refine (Text.Escapes.read_cons_of_not_prefix ?_).symm
      simp only [escapes, List.forall_mem_cons]
      refine ⟨?_, ?_, ?_, List.forall_mem_nil _⟩ <;> rintro ⟨behind, rfl⟩
      · exact hpercent behind hc rfl
      · exact hreturn behind hc rfl
      · exact hfeed behind hc rfl
    · exact (Text.Escapes.read_cons_of_ne hc).symm
  | case5 => rw [unescape, Text.Escapes.read]

/-- Escaping is undone, whatever escapes a text seems to hold before it. -/
lemma unescape_escape (message : String) : unescape (escape message).toList = message.toList := by
  rw [toList_escape, unescape_eq_read, Text.Escapes.read_write]

/-- No line ends within a text that is escaped. -/
lemma notMem_escape {c : Char} (hc : IsBreak c) (message : String) :
    c ∉ (escape message).toList := by
  rw [toList_escape]
  rcases hc with rfl | rfl <;> exact Text.Escapes.notMem_write _ (by decide) (by decide)

/-! ### Lines -/

section Lines

variable {command : Command} {project : ProjectId} {message : String} {c : Char}

/-- Whether a title can stand between the two marks of a command. -/
def IsTitle (title : String) : Prop := ∀ c ∈ title.toList, c ≠ ':' ∧ ¬IsBreak c

instance (title : String) : Decidable (IsTitle title) :=
  decidable_of_iff (title.toList.Forall _) List.forall_iff_forall_mem

/-- The text between the two marks of a command. -/
def heading (command : Command) : List Char :=
  command.level.label.toList ++ (" title=".toList ++ command.title.toList)

lemma toList_line (command : Command) :
    command.line.toList = ':' :: ':' :: (heading command ++ ':' :: ':' :: command.data.toList) := by
  simp [Command.line, heading, toString]

lemma forall_mem_heading (h : IsTitle command.title) :
    ∀ c ∈ heading command, c ≠ ':' ∧ ¬IsBreak c := by
  have hlevel : IsTitle command.level.label := by
    cases command.level <;> decide
  intro c hc
  rw [heading, List.mem_append, List.mem_append] at hc
  rcases hc with hc | hc | hc
  · exact hlevel c hc
  · exact (by decide : IsTitle " title=") c hc
  · exact h c hc

lemma behindMark?_append {start : List Char} (h : ∀ c ∈ start, c ≠ ':') (rest : List Char) :
    behindMark? (start ++ ':' :: ':' :: rest) = some rest := by
  induction start with
  | nil => rfl
  | cons c start ih =>
    rw [List.forall_mem_cons] at h
    rw [List.cons_append, behindMark?.eq_2, ih h.2]
    rintro _ ⟨⟩
    exact absurd rfl h.1

lemma data?_line (h : IsTitle command.title) :
    data? command.line.toList = some command.data.toList := by
  rw [toList_line]
  exact behindMark?_append (fun c hc => (forall_mem_heading h c hc).1) _

lemma notMem_line (hc : IsBreak c) (htitle : IsTitle command.title)
    (hdata : c ∉ command.data.toList) : c ∉ command.line.toList := by
  have hcolon : c ≠ ':' := by
    rcases hc with rfl | rfl <;> decide
  have hheading : c ∉ heading command := fun hmem => (forall_mem_heading htitle c hmem).2 hc
  simp [toList_line, hcolon, hheading, hdata]

/-- A message on a project is read back, if the label of the project needs no escapes. -/
lemma tells_line (htitle : IsTitle command.title) (hdata : command.data = about project message)
    (hproject : IsPlainText project.label) : Tells project message command.line := by
  have hcolon : IsPlainText ": " := by decide
  refine ⟨_, data?_line htitle, ?_⟩
  rw [hdata, about, String.toList_append, String.toList_append, List.append_assoc,
    unescape_append_of_isPlain hproject, unescape_append_of_isPlain hcolon, unescape_escape,
    String.toList_append, String.toList_append, List.append_assoc]

lemma notMem_line_of_about (hc : IsBreak c) (htitle : IsTitle command.title)
    (hdata : command.data = about project message)
    (hproject : IsPlainText project.label) : c ∉ command.line.toList := by
  have hlabel : c ∉ project.label.toList := fun hmem => (hproject c hmem).2 hc
  have hcolon : c ∉ ": ".toList := by
    rcases hc with rfl | rfl <;> decide
  refine notMem_line hc htitle ?_
  rw [hdata, about, String.toList_append, String.toList_append, List.mem_append, List.mem_append,
    not_or, not_or]
  exact ⟨⟨hlabel, hcolon⟩, notMem_escape hc message⟩

end Lines

/-! ### The commands of a report -/

lemma isTitle_ofViolation (policy : Policy) (v : Violation) :
    IsTitle (ofViolation policy v).title := by
  cases v with
  | unusedDirect => exact (by decide : IsTitle "Unused Dependency")
  | usedTransitive => exact (by decide : IsTitle "Used Transitive Dependency")

lemma data_ofViolation (policy : Policy) (v : Violation) :
    (ofViolation policy v).data = about v.project v.message := by
  cases v <;> rfl

lemma isTitle_ofFailure (failure : ProjectFailure) : IsTitle (ofFailure failure).title :=
  (by decide : IsTitle "Analysis Failed")

lemma notMem_line_ofCount {c : Char} (hc : IsBreak c) (count : Nat) :
    c ∉ (ofCount count).line.toList := by
  have hcount : c ∉ Nat.toDigits 10 count := by
    intro hmem
    have hdigit := Nat.isDigit_of_mem_toDigits (by decide) (by decide) hmem
    rcases hc with rfl | rfl <;> cases hdigit
  have hnoun : c ∉ (Text.pluralize "dependency problem" count).toList := by
    rw [Text.pluralize]
    rcases hc with rfl | rfl <;> split <;> decide
  have hfound : c ∉ "Found ".toList ∧ c ≠ ' ' := by
    rcases hc with rfl | rfl <;> decide
  refine notMem_line hc (by decide : IsTitle "Summary") ?_
  simp only [ofCount, Text.counted, toString, String.toList_append, List.mem_append, not_or,
    Nat.toList_repr]
  exact ⟨hfound.1, ⟨⟨hcount, by simpa using hfound.2⟩, hnoun⟩⟩

/-- The labels of the projects that a report tells of need no escapes. -/
structure IsPlainRun (s : RunSummary) : Prop where
  violations : ∀ v ∈ s.violations, IsPlainText v.project.label
  failures : ∀ failure ∈ s.failures, IsPlainText failure.project.label

instance (s : RunSummary) : Decidable (IsPlainRun s) :=
  decidable_of_iff ((∀ v ∈ s.violations, IsPlainText v.project.label) ∧
      ∀ failure ∈ s.failures, IsPlainText failure.project.label)
    ⟨fun ⟨hviolations, hfailures⟩ => ⟨hviolations, hfailures⟩,
      fun h => ⟨h.violations, h.failures⟩⟩

section Report

variable {s : RunSummary}

lemma commands_of_ne_nil (h : s.violations ≠ [] ∨ s.failures ≠ []) :
    commands s = s.violations.map (ofViolation s.policy) ++ s.failures.map ofFailure ++
      if s.violations = [] then [] else [ofCount s.violations.length] := by
  have hfound : ¬(s.violations.isEmpty && s.failures.isEmpty) = true := by
    rw [Bool.and_eq_true, List.isEmpty_iff, List.isEmpty_iff, not_and_or]
    exact h
  rw [commands, if_neg hfound]
  simp only [List.isEmpty_iff]

lemma notMem_lines (h : s.violations ≠ [] ∨ s.failures ≠ []) (hplain : IsPlainRun s) {c : Char}
    (hc : IsBreak c) : ∀ line ∈ (commands s).map Command.line, c ∉ line.toList := by
  intro line hline
  obtain ⟨command, hcommand, rfl⟩ := List.mem_map.1 hline
  rw [commands_of_ne_nil h, List.mem_append, List.mem_append] at hcommand
  rcases hcommand with (hcommand | hcommand) | hcommand
  · obtain ⟨v, hv, rfl⟩ := List.mem_map.1 hcommand
    exact notMem_line_of_about hc (isTitle_ofViolation _ v) (data_ofViolation _ v)
      (hplain.violations v hv)
  · obtain ⟨failure, hfailure, rfl⟩ := List.mem_map.1 hcommand
    exact notMem_line_of_about hc (isTitle_ofFailure failure) rfl
      (hplain.failures failure hfailure)
  · split at hcommand
    · cases hcommand
    · obtain rfl := List.mem_singleton.1 hcommand
      exact notMem_line_ofCount hc _

end Report

/-- From the report on a run with findings or failures a workflow gets one command for each
violation and one for each project that could not be analysed, with the project and the whole
message, and one with the number of violations if there are any. Messages may hold any text; the
labels of the projects are those that need no escapes. -/
theorem report_readsBack (s : RunSummary) (h : s.violations ≠ [] ∨ s.failures ≠ [])
    (hplain : IsPlainRun s) : ReadsBack s (report s) := by
  refine ⟨(s.violations.map (ofViolation s.policy)).map Command.line,
    (s.failures.map ofFailure).map Command.line, ?_, ?_, ?_, ?_⟩
  · rw [report, Text.splitOnChar_unlines_of_notMem (notMem_lines h hplain (.inl rfl)),
      commands_of_ne_nil h, List.map_append, List.map_append]
    split <;> rfl
  · exact Text.notMem_unlines (by decide) (notMem_lines h hplain (.inr rfl))
  · rw [List.map_map, List.forall₂_map_right_iff, List.forall₂_same]
    exact fun v hv =>
      tells_line (isTitle_ofViolation _ v) (data_ofViolation _ v) (hplain.violations v hv)
  · rw [List.map_map, List.forall₂_map_right_iff, List.forall₂_same]
    exact fun failure hfailure =>
      tells_line (isTitle_ofFailure failure) rfl (hplain.failures failure hfailure)

/-! ### A report that is read back, and one that is not -/

/-- The run over a project called `name` with a direct dependency that is not used, and over one
that could not be analysed. -/
def sampleCommands (name : String) : RunSummary where
  results := [(Findings.empty ⟨"com.acme", name, "1.0", .jar⟩).markUnused
    ⟨⟨"com.acme", "50%25\nlibrary", "1.0", .jar, none⟩, .compile, none⟩]
  failures := [⟨⟨"com.acme", "broken", "1.0", .jar⟩, ⟨"50%\r\n::notice::all is well", []⟩⟩]
  policy := { failIfUnused := true }
  stoppedEarly := false

theorem report_readsBack_sampleCommands :
    (sampleCommands "app").violations ≠ [] ∧ IsPlainRun (sampleCommands "app") ∧
    ReadsBack (sampleCommands "app") (report (sampleCommands "app")) := by
  have hfound : (sampleCommands "app").violations ≠ [] := by decide +kernel
  have hplain : IsPlainRun (sampleCommands "app") := by decide +kernel
  exact ⟨hfound, hplain, report_readsBack _ (.inl hfound) hplain⟩

/-- The name of a project that is a command of its own from its second line on. -/
def forgedName : String := "app\n::notice title=Summary::Found 0 dependency problems"

/-- A descriptor may give a project such a name, which is not blank. The report has a line more than
there are findings. -/
theorem report_forged :
    Text.isAllBlank forgedName = false ∧ (sampleCommands forgedName).violations ≠ [] ∧
    ¬ReadsBack (sampleCommands forgedName) (report (sampleCommands forgedName)) := by
  have hfound : (sampleCommands forgedName).violations.length = 1 := by decide +kernel
  have hlines : (((commands (sampleCommands forgedName)).map Command.line).flatMap
      (Text.splitOnChar '\n')).length = 4 := by decide +kernel
  have hne : (sampleCommands forgedName).violations ≠ [] := List.ne_nil_of_length_eq_add_one hfound
  refine ⟨by decide +kernel, hne, ?_⟩
  -- one line for the violation, one for the failure and one for their number would be three
  rintro ⟨onViolations, onFailures, hsplit, -, hviolations, hfailures⟩
  have hviolations' := hviolations.length_eq
  have hfailures' : 1 = onFailures.length := hfailures.length_eq
  rw [report, Text.splitOnChar_unlines] at hsplit
  have hlength := congrArg List.length hsplit
  rw [List.length_append, hlines, if_neg hne, List.length_append, List.length_append,
    List.length_append, List.length_singleton, List.length_singleton] at hlength
  omega

end GitHubReport
end ClasspathAudit

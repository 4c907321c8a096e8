import ClasspathAudit.Proofs.Toml.Texts

/-
# Documents read back

A document of texts under bare keys says what it was written to say: each line is a statement of its
own, whatever the lines behind it are. The statements of a list of tables, each opened by a header,
make up these tables.
-/
namespace ClasspathAudit
namespace Toml

open Reader

variable {name blanks chars rest : List Char} {s : Statement} {found : List Statement}
  {budget : Nat}

/-! ### Keys -/

/-- Whether a name may stand as a key without quotes. -/
structure IsBareName (name : List Char) : Prop where
  ne_nil : name ≠ []
  bare : ∀ c ∈ name, isBareKey c = true

/-- Whether characters end a key: they start with none that could be a part of it, be it in the key
or behind a dot. -/
def EndsKey (rest : List Char) : Prop :=
  ∀ c ∈ rest.head?, isBareKey c = false ∧ isSpace c = false ∧ c ≠ '.'

lemma isBareKey_of_isSpace {c : Char} (h : isSpace c = true) : isBareKey c = false := by
  rw [isSpace, Bool.or_eq_true, beq_iff_eq, beq_iff_eq] at h
  rcases h with rfl | rfl <;> rfl

lemma isSpace_of_isBareKey {c : Char} (h : isBareKey c = true) : isSpace c = false := by
  by_contra hspace
  rw [Bool.not_eq_false] at hspace
  rw [isBareKey_of_isSpace hspace] at h
  cases h

lemma IsBareName.append_ne {c : Char} (h : IsBareName name) (hc : isBareKey c = false)
    (more : List Char) {rest : List Char} : name ++ rest ≠ c :: more := by
  intro heq
  obtain ⟨x, name, rfl⟩ := List.exists_cons_of_ne_nil h.ne_nil
  obtain rfl : x = c := (List.cons.inj heq).1
  rw [h.bare x List.mem_cons_self] at hc
  cases hc

lemma reads_spaces (hblanks : ∀ c ∈ blanks, isSpace c = true)
    (hrest : ∀ c ∈ rest.head?, isSpace c = false) : Reads spaces blanks () rest :=
  (reads_many hblanks hrest).map (f := fun _ => ())

lemma IsBareName.reads_simpleKey (h : IsBareName name)
    (hrest : ∀ c ∈ rest.head?, isBareKey c = false) :
    Reads (simpleKey budget) name (String.ofList name) rest := by
  have hmany : Reads (many isBareKey) name name rest := reads_many h.bare hrest
  refine reads_rest ?_
  split
  · rename_i heq
    exact absurd heq (h.append_ne rfl _)
  · rename_i heq
    exact absurd heq (h.append_ne rfl _)
  · have hempty : name.isEmpty = false := List.isEmpty_eq_false_iff.2 h.ne_nil
    refine hmany.bindNil ?_
    rw [hempty]
    exact reads_pure _ rest

/-- A bare name is a key of one part, and blanks behind it belong to it. -/
lemma IsBareName.reads_key (h : IsBareName name) (budget : Nat)
    (hblanks : ∀ c ∈ blanks, isSpace c = true) (hrest : EndsKey rest) :
    Reads (key (budget + 1)) (name ++ blanks) [String.ofList name] rest := by
  have hends : ∀ c ∈ (blanks ++ rest).head?, isBareKey c = false := by
    cases blanks with
    | nil => exact fun c hc => (hrest c hc).1
    | cons b blanks =>
      intro c hc
      obtain rfl : b = c := Option.some.inj hc
      exact isBareKey_of_isSpace (hblanks b List.mem_cons_self)
  have hspaces : Reads spaces blanks () rest := reads_spaces hblanks fun c hc => (hrest c hc).2.1
  have hpath : Reads (dottedKey (budget + 1)) (name ++ blanks) [String.ofList name] rest := by
    refine (h.reads_simpleKey hends).bind (hspaces.bindNil (reads_rest ?_))
    rw [List.nil_append]
    split
    · exact absurd rfl (hrest '.' rfl).2.2
    · exact reads_pure _ _
  exact hpath.bindNil (reads_pure _ rest)

/-! ### Statements -/

lemma reads_header (h : IsBareName name) (budget : Nat) (rest : List Char) :
    Reads (statement (budget + 1)) (['[', '['] ++ (name ++ [']', ']']))
      (.element [String.ofList name]) rest := by
  have hends : EndsKey (']' :: ']' :: rest) := by
    intro c hc
    obtain rfl : ']' = c := Option.some.inj hc
    exact ⟨rfl, rfl, by decide⟩
  have hkey : Reads (key (budget + 1)) (name ++ []) [String.ofList name] (']' :: ']' :: rest) :=
    h.reads_key budget (by simp) hends
  rw [List.append_nil] at hkey
  have hspaces : Reads spaces [] () (name ++ [']', ']'] ++ rest) := by
    obtain ⟨c, more, rfl⟩ := List.exists_cons_of_ne_nil h.ne_nil
    refine reads_spaces (by simp) fun x hx => ?_
    obtain rfl : c = x := Option.some.inj hx
    exact isSpace_of_isBareKey (h.bare c List.mem_cons_self)
  exact reads_rest (Reads.skipped rfl (hspaces.bind (hkey.bind (reads_expect [']', ']'] rest).map)))

lemma reads_value {text : List Char} (hrest : EndsText rest)
    (hbudget : (written text).length ≤ budget) (levels : Nat) :
    Reads (value (budget + 1) levels) (written text) (.text (String.ofList text)) rest := by
  have hread := reads_written text hrest hbudget
  rw [value]
  refine reads_rest ?_
  obtain ⟨more, h | h⟩ := exists_written_eq_cons text
  · rw [h] at hread ⊢
    exact hread.map
  · rw [h] at hread ⊢
    exact hread.map

lemma reads_assignment (h : IsBareName name) {text : List Char} (hrest : EndsText rest)
    (hbudget : (written text).length ≤ budget) :
    Reads (statement (budget + 1)) (name ++ [' '] ++ (['='] ++ ([' '] ++ written text)))
      (.assignment [String.ofList name] (.text (String.ofList text))) rest := by
  have hends : EndsKey (['='] ++ ([' '] ++ written text) ++ rest) := by
    intro c hc
    obtain rfl : '=' = c := Option.some.inj hc
    exact ⟨rfl, rfl, by decide⟩
  have hkey : Reads (key (budget + 1)) (name ++ [' ']) [String.ofList name]
      (['='] ++ ([' '] ++ written text) ++ rest) :=
    h.reads_key budget (by simp [isSpace]) hends
  have hspaces : Reads spaces [' '] () (written text ++ rest) := by
    refine reads_spaces (by simp [isSpace]) fun x hx => ?_
    obtain ⟨more, h | h⟩ := exists_written_eq_cons text
    · rw [h] at hx
      obtain rfl : '"' = x := Option.some.inj hx
      rfl
    · rw [h] at hx
      obtain rfl : '\'' = x := Option.some.inj hx
      rfl
  refine reads_rest ?_
  split
  · rename_i heq
    rw [List.append_assoc, List.append_assoc] at heq
    exact absurd heq (h.append_ne rfl _)
  · rename_i heq
    rw [List.append_assoc, List.append_assoc] at heq
    exact absurd heq (h.append_ne rfl _)
  · exact hkey.bind ((reads_expect ['='] _).bind
      (hspaces.bind (reads_value hrest hbudget maxDepth).map))

/-! ### Lines -/

/-- Whether a document consists of some statements. -/
def Says (chars : List Char) (found : List Statement) : Prop :=
  ∀ budget, chars.length < budget → statements budget chars = some (found, [])

lemma says_nil : Says [] [] := by
  intro budget hbudget
  obtain ⟨budget, rfl⟩ : ∃ n, budget = n + 1 := ⟨budget - 1, by omega⟩
  rfl

/-- An empty line says nothing. -/
lemma Says.newline (h : Says chars found) : Says ('\n' :: chars) found := by
  intro budget hbudget
  obtain ⟨budget, rfl⟩ : ∃ n, budget = n + 1 := ⟨budget - 1, by omega⟩
  rw [List.length_cons] at hbudget
  exact h (budget + 1) (by omega)

/-- Whether a line starts with what is no gap. -/
def StartsLine (line : List Char) : Prop :=
  ∀ rest, line ++ rest ≠ [] ∧ afterGap false (line ++ rest) = line ++ rest

lemma startsLine_header (more : List Char) : StartsLine ('[' :: more) :=
  fun _ => ⟨List.cons_ne_nil _ _, rfl⟩

lemma IsBareName.startsLine (h : IsBareName name) (more : List Char) :
    StartsLine (name ++ more) := by
  obtain ⟨c, name, rfl⟩ := List.exists_cons_of_ne_nil h.ne_nil
  have hc : isBareKey c = true := h.bare c List.mem_cons_self
  have hne : ∀ x, isBareKey x = false → c ≠ x := by
    rintro x hx rfl
    rw [hc] at hx
    cases hx
  refine fun rest => ⟨List.cons_ne_nil _ _, ?_⟩
  rw [List.append_assoc, List.cons_append, afterGap]
  · rw [if_neg Bool.false_ne_true, isSpace_of_isBareKey hc, if_neg Bool.false_ne_true,
      if_neg (hne '#' rfl)]
  · exact hne '\n' rfl
  · exact fun _ h => absurd h (hne '\r' rfl)

/-- A line that is a statement says it, before all that the lines behind it say. -/
lemma Says.line {line : List Char} (h : Says chars found) (hstarts : StartsLine line)
    (hread : ∀ budget, line.length ≤ budget →
      Reads (statement (budget + 1)) line s ('\n' :: chars)) :
    Says (line ++ '\n' :: chars) (s :: found) := by
  intro budget hbudget
  rw [List.length_append, List.length_cons] at hbudget
  obtain ⟨budget, rfl⟩ : ∃ n, budget = n + 1 := ⟨budget - 1, by omega⟩
  obtain ⟨hne, hafter⟩ := hstarts ('\n' :: chars)
  have hgap : anyGap (line ++ '\n' :: chars) = some ((), line ++ '\n' :: chars) := by
    rw [anyGap, hafter]
  have hspaces : Reads spaces [] () ('\n' :: chars) :=
    reads_spaces (by simp) (by simp [isSpace])
  rw [Reads, List.nil_append] at hspaces
  have hcomment : comment ('\n' :: chars) = some ((), '\n' :: chars) := rfl
  have hend : lineEnd ('\n' :: chars) = some (true, chars) := rfl
  rw [statements, bind_of_some hgap]
  refine (bind_of_some rfl).trans ?_
  obtain ⟨c, more, hcons⟩ := List.exists_cons_of_ne_nil hne
  rw [hcons]
  dsimp only
  rw [← hcons, bind_of_some (hread budget (by omega)), bind_of_some hspaces,
    bind_of_some hcomment, bind_of_some hend, if_pos rfl, bind_of_some (h budget (by omega))]
  rfl

/-- A document says what it was read to say; only at its start a byte order mark would count for
nothing. -/
lemma Says.read?_eq {document : String} (h : Says document.toList found)
    (hmark : document.toList.head? ≠ some '\uFEFF') :
    read? document = Entries.ofStatements? found [] [] := by
  have hchars : ∀ more, document.toList ≠ '\uFEFF' :: more := by
    intro more heq
    rw [heq] at hmark
    exact hmark rfl
  have hrun : (withBudget statements).run document.toList = some (found, []) :=
    h _ (Nat.lt_succ_self _)
  simp only [read?, hrun]

/-! ### Lists of tables -/

/-- The characters of a table of texts behind the header `key` of a list of tables. -/
def tableChars (key : String) (fields : List (String × String)) : List Char :=
  "[[".toList ++ key.toList ++ "]]\n".toList ++
    fields.flatMap fun field => (writeEntry field.1 field.2).toList

/-- Keys with texts as statements. -/
def assignments (fields : List (String × String)) : List Statement :=
  fields.map fun field => .assignment [field.1] (.text field.2)

/-- Keys with texts as entries of a table. -/
def textEntries (fields : List (String × String)) : Entries :=
  fields.map fun field => (field.1, .text field.2)

/-- A document with one list of tables, the last one first, or with none. -/
def listOfTables (key : String) : List Entries → Entries
  | [] => []
  | items => [(key, .tables items)]

variable {fields : List (String × String)} {tables : List (List (String × String))} {key : String}

lemma Says.entry {text : String} (h : Says chars found) (hkey : IsBareName key.toList) :
    Says ((writeEntry key text).toList ++ chars) (.assignment [key] (.text text) :: found) := by
  have hline : (writeEntry key text).toList ++ chars =
      key.toList ++ [' '] ++ (['='] ++ ([' '] ++ written text.toList)) ++ '\n' :: chars := by
    have hentry : writeEntry key text =
        key ++ " = " ++ String.ofList (written text.toList) ++ "\n" := rfl
    simp [hentry]
  have hread : ∀ budget,
      (key.toList ++ [' '] ++ (['='] ++ ([' '] ++ written text.toList))).length ≤ budget →
      Reads (statement (budget + 1))
        (key.toList ++ [' '] ++ (['='] ++ ([' '] ++ written text.toList)))
        (.assignment [key] (.text text)) ('\n' :: chars) := by
    intro budget hbudget
    have hends : EndsText ('\n' :: chars) := ⟨by simp, by simp⟩
    have hle : (written text.toList).length ≤ budget := by
      simp only [List.length_append] at hbudget
      omega
    have hassign := reads_assignment hkey hends hle
    rwa [String.ofList_toList, String.ofList_toList] at hassign
  rw [hline]
  exact h.line (by rw [List.append_assoc]; exact hkey.startsLine _) hread

lemma Says.assignments (h : Says chars found) :
    (∀ field ∈ fields, IsBareName field.1.toList) →
    Says ((fields.flatMap fun field => (writeEntry field.1 field.2).toList) ++ chars)
      (assignments fields ++ found) := by
  induction fields with
  | nil => exact fun _ => h
  | cons field fields ih =>
    intro hkeys
    rw [List.flatMap_cons, List.append_assoc]
    exact (ih fun f hf => hkeys f (List.mem_cons_of_mem field hf)).entry
      (hkeys field List.mem_cons_self)

lemma Says.header (h : Says chars found) (hkey : IsBareName key.toList) :
    Says ("[[".toList ++ key.toList ++ "]]\n".toList ++ chars) (.element [key] :: found) := by
  have hline : "[[".toList ++ key.toList ++ "]]\n".toList ++ chars =
      (['[', '['] ++ (key.toList ++ [']', ']'])) ++ '\n' :: chars := by simp
  have hread : ∀ budget, (['[', '['] ++ (key.toList ++ [']', ']'])).length ≤ budget →
      Reads (statement (budget + 1)) (['[', '['] ++ (key.toList ++ [']', ']']))
        (.element [key]) ('\n' :: chars) := by
    intro budget _
    have hheader := reads_header hkey budget ('\n' :: chars)
    rwa [String.ofList_toList] at hheader
  rw [hline]
  exact h.line (startsLine_header _) hread

/-- Tables with an empty line between them say what each of them says. -/
lemma says_tables (hkey : IsBareName key.toList)
    (hkeys : ∀ fields ∈ tables, ∀ field ∈ fields, IsBareName field.1.toList) :
    Says (['\n'].intercalate (tables.map (tableChars key)))
      (tables.flatMap fun fields => .element [key] :: assignments fields) := by
  have htable : ∀ {fields : List (String × String)} {chars : List Char} {found : List Statement},
      Says chars found → (∀ field ∈ fields, IsBareName field.1.toList) →
      Says (tableChars key fields ++ chars) (.element [key] :: (assignments fields ++ found)) := by
    intro fields chars found h hfields
    rw [tableChars, List.append_assoc]
    exact (h.assignments hfields).header hkey
  induction tables with
  | nil => exact says_nil
  | cons fields tables ih =>
    have hfirst := hkeys fields List.mem_cons_self
    have hmore := ih fun t ht => hkeys t (List.mem_cons_of_mem fields ht)
    rw [List.map_cons, List.flatMap_cons, List.cons_append]
    cases tables with
    | nil =>
      rw [List.map_nil, List.intercalate_singleton, ← List.append_nil (tableChars key fields)]
      exact htable hmore hfirst
    | cons second tables =>
      rw [List.map_cons, List.intercalate_cons_cons, List.append_assoc, List.singleton_append,
        ← List.map_cons]
      exact htable hmore.newline hfirst

/-! ### What the tables make up -/

lemma lookup_eq_none {sub : Entries} (h : key ∉ sub.map Prod.fst) : sub.lookup key = none := by
  rw [List.lookup_eq_none_iff]
  intro entry hentry
  have hne : key ≠ entry.1 := fun heq => h (heq ▸ List.mem_map_of_mem hentry)
  simpa using hne

lemma assign?_single {sub : Entries} {value : Value} (h : key ∉ sub.map Prod.fst) :
    Entries.assign? [key] value sub = some (sub ++ [(key, value)]) := by
  show Entries.insertNew? key value sub = _
  rw [Entries.insertNew?, lookup_eq_none h]
  rfl

/-- An assignment goes to the last of the tables. -/
lemma updateAt?_tables {change : Entries → Option Entries} {sub sub' : Entries}
    {before : List Entries} (h : change sub = some sub') :
    Entries.updateAt? .implied change [key] [(key, .tables (sub :: before))] =
      some [(key, .tables (sub' :: before))] := by
  simp [Entries.updateAt?, Entries.replace, h]

lemma ofStatements?_assignments {rest : List Statement} {before : List Entries} :
    ∀ {sub : Entries}, (sub.map Prod.fst ++ fields.map Prod.fst).Nodup →
    Entries.ofStatements? (assignments fields ++ rest) [key] [(key, .tables (sub :: before))] =
      Entries.ofStatements? rest [key]
        [(key, .tables ((sub ++ textEntries fields) :: before))] := by
  induction fields with
  | nil =>
    intro sub _
    rw [textEntries, List.map_nil, List.append_nil]
    rfl
  | cons field fields ih =>
    intro sub hnodup
    have hnew : field.1 ∉ sub.map Prod.fst := fun hmem =>
      (List.nodup_append.1 hnodup).2.2 field.1 hmem field.1 List.mem_cons_self rfl
    have hassign : Entries.assign? [field.1] (.text field.2) sub =
        some (sub ++ [(field.1, .text field.2)]) := assign?_single hnew
    have hstep := @updateAt?_tables key _ _ _ before hassign
    have hrest : ((sub ++ [(field.1, Value.text field.2)]).map Prod.fst ++
        fields.map Prod.fst).Nodup := by
      rw [List.map_append, List.append_assoc]
      exact hnodup
    have hsplit : sub ++ textEntries (field :: fields) =
        sub ++ [(field.1, Value.text field.2)] ++ textEntries fields := by
      rw [List.append_assoc]
      rfl
    rw [hsplit, ← ih hrest, assignments, List.map_cons, List.cons_append, Entries.ofStatements?,
      hstep]
    rfl

lemma openElement?_listOfTables (before : List Entries) :
    Entries.openElement? key (listOfTables key before) = some [(key, .tables ([] :: before))] := by
  cases before with
  | nil => rfl
  | cons sub before => simp [Entries.openElement?, listOfTables, Entries.replace]

lemma ofStatements?_tables (hnodup : ∀ fields ∈ tables, (fields.map Prod.fst).Nodup) :
    ∀ (here : List String) (before : List Entries),
      Entries.ofStatements? (tables.flatMap fun fields => .element [key] :: assignments fields) here
          (listOfTables key before) =
        some (listOfTables key ((tables.map textEntries).reverse ++ before)) := by
  induction tables with
  | nil => exact fun here before => rfl
  | cons fields tables ih =>
    intro here before
    have hfields : (([] : Entries).map Prod.fst ++ fields.map Prod.fst).Nodup :=
      hnodup fields List.mem_cons_self
    have hmore := ih (fun t ht => hnodup t (List.mem_cons_of_mem fields ht)) [key]
      (textEntries fields :: before)
    have hopen := @openElement?_listOfTables key before
    rw [List.flatMap_cons, List.cons_append, Entries.ofStatements?]
    show (Entries.openElement? key (listOfTables key before) >>= fun entries =>
      Entries.ofStatements? _ [key] entries) = _
    rw [hopen]
    show Entries.ofStatements? _ [key] [(key, .tables ([] :: before))] = _
    rw [ofStatements?_assignments hfields, List.nil_append, List.map_cons, List.reverse_cons,
      List.append_assoc, List.singleton_append]
    exact hmore

/-- Tables written one after the other make up a document that holds them and nothing else. -/
lemma read?_tables {document : String}
    (hdocument : document.toList = ['\n'].intercalate (tables.map (tableChars key)))
    (hkey : IsBareName key.toList)
    (hkeys : ∀ fields ∈ tables, ∀ field ∈ fields, IsBareName field.1.toList)
    (hnodup : ∀ fields ∈ tables, (fields.map Prod.fst).Nodup) :
    read? document = some (listOfTables key (tables.map textEntries).reverse) := by
  have hstatements := says_tables hkey hkeys
  have hmark : document.toList.head? ≠ some '\uFEFF' := by
    rw [hdocument]
    match tables with
    | [] => simp
    | [fields] => simp [tableChars]
    | fields :: second :: tables => simp [tableChars]
  have hread := @ofStatements?_tables _ key hnodup [] []
  rw [← hdocument] at hstatements
  rw [hstatements.read?_eq hmark]
  rw [List.append_nil] at hread
  exact hread

end Toml
end ClasspathAudit

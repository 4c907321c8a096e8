import ClasspathAudit.Proofs.Artifact.Labels
import ClasspathAudit.Proofs.Descriptor.Entries
import ClasspathAudit.Proofs.Toml.Documents
import ClasspathAudit.Report.Suggestion
import ClasspathAudit.Repository

/-
# Suggested entries

Entries for dependencies are printed as tables of a descriptor. Read in the place of a descriptor
they are the same entries again, apart from packaging types that no descriptor could have named. So
the entry suggested for an artifact gives the artifact again, but not the location that another
entry may have given it: a suggested entry has no path, and leaves the artifact to the repository.
-/
namespace ClasspathAudit

namespace DependencySpec

/-! ### Printed entries -/

/-- The keys of an entry with their texts, as they are printed. -/
def fields (spec : DependencySpec) : List (String × String) :=
  [("group", spec.group), ("name", spec.name), ("version", spec.version),
    ("type", spec.packaging.label), ("scope", spec.scope.label)] ++
  (spec.classifier.map fun classifier => ("classifier", classifier)).toList ++
  (spec.path.map fun path => ("path", path.text)).toList

/-- An entry as it is read back. -/
def readBack (spec : DependencySpec) : DependencySpec :=
  { spec with packaging := .ofText spec.packaging.label }

variable {spec : DependencySpec}

lemma toList_toml (spec : DependencySpec) :
    spec.toml.toList =
      spec.fields.flatMap fun field => (Toml.writeEntry field.1 field.2).toList := by
  rw [toml, fields]
  cases spec.classifier <;> cases spec.path <;> simp

/-- The keys that an entry may have. -/
def fieldNames : List String :=
  ["group", "name", "version", "type", "scope", "classifier", "path"]

lemma isBareName_of_mem {name : String} (h : name ∈ fieldNames) : Toml.IsBareName name.toList := by
  have hall : ∀ name ∈ fieldNames, name.toList ≠ [] ∧ name.toList.all Toml.isBareKey = true := by
    decide
  exact ⟨(hall name h).1, List.all_eq_true.1 (hall name h).2⟩

lemma map_fst_fields_sublist (spec : DependencySpec) :
    (spec.fields.map Prod.fst).Sublist fieldNames := by
  rw [fields, fieldNames]
  cases spec.classifier <;> cases spec.path <;> simp

lemma asDependency?_fields (spec : DependencySpec) :
    Descriptor.asDependency? (.table .header (Toml.textEntries spec.fields)) =
      some spec.readBack := by
  obtain ⟨group, name, version, packaging, scope, classifier, path⟩ := spec
  have hscope := Scope.ofLabel?_label scope
  cases classifier <;> cases path <;>
    simp [Descriptor.asDependency?, Descriptor.fieldsOf?, Toml.textEntries, fields,
      List.lookup_cons, Descriptor.optional?, Descriptor.asText?, Descriptor.asScope?, hscope,
      readBack]

end DependencySpec

namespace Descriptor

open DependencySpec (fields readBack)

variable {d : Descriptor} {path : Path} {text : String} {spec : DependencySpec} {a : Artifact}
  {r : Repository}

lemma toList_tables (entries : List DependencySpec) :
    (SuggestionReport.tables entries).toList =
      ['\n'].intercalate ((entries.map fields).map (Toml.tableChars "dependencies")) := by
  have hheader : "[[dependencies]]\n".toList =
      "[[".toList ++ "dependencies".toList ++ "]]\n".toList := by decide
  have htable : ∀ spec : DependencySpec,
      ("[[dependencies]]\n" ++ spec.toml).toList = Toml.tableChars "dependencies" spec.fields := by
    intro spec
    rw [String.toList_append, DependencySpec.toList_toml, hheader, Toml.tableChars]
  rw [SuggestionReport.tables, String.toList_intercalate, List.map_map, List.map_map]
  exact congrArg _ (List.map_congr_left fun spec _ => htable spec)

lemma mapM_asDependency? (entries : List DependencySpec) :
    (((entries.map fields).map Toml.textEntries).map (Toml.Value.table .header)).mapM
      asDependency? = some (entries.map readBack) := by
  induction entries with
  | nil => rfl
  | cons spec entries ih =>
    rw [List.map_cons, List.map_cons, List.map_cons, List.mapM_cons, spec.asDependency?_fields, ih]
    rfl

/-- A document with one list of tables is a descriptor with these dependencies only. -/
lemma ofEntries?_listOfTables {tables : List Toml.Entries} {entries : List DependencySpec}
    (h : (tables.map (Toml.Value.table .header)).mapM asDependency? = some entries) :
    ofEntries? (Toml.listOfTables "dependencies" tables.reverse) =
      some ⟨none, [], entries, []⟩ := by
  cases hitems : tables.reverse with
  | nil =>
    obtain rfl := List.reverse_eq_nil_iff.1 hitems
    obtain rfl := Option.some.inj h
    rfl
  | cons last before =>
    have hlist : asListOf? asDependency? (.tables (last :: before)) = some entries := by
      rw [← hitems]
      show (tables.reverse.reverse.map (Toml.Value.table .header)).mapM asDependency? = _
      rw [List.reverse_reverse, h]
    show (do
      let dependencies ← optional? (asListOf? asDependency?) (some (.tables (last :: before)))
      return Descriptor.mk none [] (dependencies.getD []) []) = _
    rw [optional?, hlist]
    rfl

/-- Printed entries are the dependencies of a descriptor with nothing else in it. -/
lemma parse_tables (path : Path) (entries : List DependencySpec) :
    parse path (SuggestionReport.tables entries) =
      .ok ⟨none, [], entries.map readBack, []⟩ := by
  have hname : ∀ table ∈ entries.map fields, ∀ field ∈ table,
      Toml.IsBareName field.1.toList := by
    intro table htable field hfield
    obtain ⟨spec, -, rfl⟩ := List.mem_map.1 htable
    exact DependencySpec.isBareName_of_mem
      (spec.map_fst_fields_sublist.mem (List.mem_map_of_mem hfield))
  have hnodup : ∀ table ∈ entries.map fields, (table.map Prod.fst).Nodup := by
    intro table htable
    obtain ⟨spec, -, rfl⟩ := List.mem_map.1 htable
    exact spec.map_fst_fields_sublist.nodup (by decide)
  have hkey : Toml.IsBareName "dependencies".toList :=
    ⟨by decide, List.all_eq_true.1 (by decide)⟩
  have hread := Toml.read?_tables (toList_tables entries) hkey hname hnodup
  have hentries := ofEntries?_listOfTables (mapM_asDependency? entries)
  rw [parse, hread, Option.bind_eq_bind, Option.bind_some, hentries]

/-! ### Entries that were read -/

section

variable {α β : Type} {f : α → Option β}

lemma exists_of_mem_mapM {l : List α} : ∀ {found : List β}, l.mapM f = some found →
    ∀ b ∈ found, ∃ a, f a = some b := by
  induction l with
  | nil =>
    intro found h b hb
    obtain rfl : [] = found := Option.some.inj h
    cases hb
  | cons x l ih =>
    intro found h b hb
    rw [List.mapM_cons] at h
    obtain ⟨y, hy, h⟩ := Option.bind_eq_some_iff.1 h
    obtain ⟨more, hmore, h⟩ := Option.bind_eq_some_iff.1 h
    obtain rfl : y :: more = found := Option.some.inj h
    rcases List.mem_cons.1 hb with rfl | hb
    · exact ⟨x, hy⟩
    · exact ih hmore b hb

/-- What a list that may be left out holds was read. -/
lemma exists_of_mem_optional {value : Option Toml.Value} {found : Option (List β)}
    {read? : Toml.Value → Option β} (h : optional? (asListOf? read?) value = some found) {b : β}
    (hb : b ∈ found.getD []) : ∃ item, read? item = some b := by
  cases value with
  | none =>
    obtain rfl : none = found := Option.some.inj h
    cases hb
  | some value =>
    obtain ⟨items, hitems, rfl⟩ := Option.map_eq_some_iff.1 h
    obtain ⟨values, -, hvalues⟩ := Option.bind_eq_some_iff.1 hitems
    exact exists_of_mem_mapM hvalues b hb

end

/-- The packaging type of an entry that was read is the one that some name calls for. -/
lemma exists_packaging_of_asDependency? {value : Toml.Value} (h : asDependency? value = some spec) :
    ∃ name, spec.packaging = .ofText name := by
  rw [asDependency?] at h
  obtain ⟨found, -, h⟩ := Option.bind_eq_some_iff.1 h
  split at h
  · -- group, name and version have to be there
    obtain ⟨_, -, h⟩ := Option.bind_eq_some_iff.1 h
    obtain ⟨_, -, h⟩ := Option.bind_eq_some_iff.1 h
    obtain ⟨_, -, h⟩ := Option.bind_eq_some_iff.1 h
    obtain ⟨_, -, h⟩ := Option.bind_eq_some_iff.1 h
    obtain ⟨_, -, h⟩ := Option.bind_eq_some_iff.1 h
    obtain ⟨_, -, h⟩ := Option.bind_eq_some_iff.1 h
    obtain ⟨type, -, h⟩ := Option.bind_eq_some_iff.1 h
    obtain ⟨_, -, h⟩ := Option.bind_eq_some_iff.1 h
    obtain ⟨_, -, h⟩ := Option.bind_eq_some_iff.1 h
    obtain ⟨_, -, h⟩ := Option.bind_eq_some_iff.1 h
    obtain rfl := Option.some.inj h
    cases type with
    | none =>
      have hjar : Packaging.jar = .ofText "jar" := by decide +kernel
      exact ⟨"jar", hjar⟩
    | some name => exact ⟨name, rfl⟩
  · cases h

lemma exists_packaging_of_parse (h : parse path text = .ok d)
    (hspec : spec ∈ d.dependencies ++ d.transitive) : ∃ name, spec.packaging = .ofText name := by
  have hread : ∃ item, asDependency? item = some spec := by
    rw [parse] at h
    split at h
    · rename_i descriptor hdescriptor
      obtain rfl : descriptor = d := Except.ok.inj h
      obtain ⟨entries, -, hentries⟩ := Option.bind_eq_some_iff.1 hdescriptor
      rw [ofEntries?] at hentries
      obtain ⟨found, -, hentries⟩ := Option.bind_eq_some_iff.1 hentries
      split at hentries
      · obtain ⟨_, -, hentries⟩ := Option.bind_eq_some_iff.1 hentries
        obtain ⟨_, -, hentries⟩ := Option.bind_eq_some_iff.1 hentries
        obtain ⟨dependencies, hdependencies, hentries⟩ := Option.bind_eq_some_iff.1 hentries
        obtain ⟨transitive, htransitive, hentries⟩ := Option.bind_eq_some_iff.1 hentries
        obtain rfl := Option.some.inj hentries
        rcases List.mem_append.1 hspec with hspec | hspec
        · exact exists_of_mem_optional hdependencies hspec
        · exact exists_of_mem_optional htransitive hspec
      · cases hentries
    · cases h
  obtain ⟨item, hitem⟩ := hread
  exact exists_packaging_of_asDependency? hitem

end Descriptor

/-! ### Suggested entries -/

namespace Descriptor

variable {d : Descriptor} {path : Path} {text : String} {spec : DependencySpec} {a : Artifact}

/-- For the artifact that an entry of a descriptor names there is a suggested entry. Read in the
place of the descriptor, among other entries or by itself, it gives an artifact with the same
coordinates and scope, except that bean archives have the scope `provided`. The repository puts that
artifact where the coordinates have their place in it, which is where it put the first one unless
the first entry named a path. -/
theorem suggested_readsBack (hparse : parse path text = .ok d)
    (hspec : spec ∈ d.dependencies ++ d.transitive) (ha : spec.toArtifact (baseOf path) = .ok a)
    (r : Repository) :
    ∃ resolved, r.resolve a = .ok resolved ∧
      ∀ front back : List DependencySpec, ∃ d' entry b again,
        parse path (SuggestionReport.tables (front ++ .suggested resolved :: back)) = .ok d' ∧
        d'.dependencies[front.length]? = some entry ∧
        entry.toArtifact (baseOf path) = .ok b ∧
        b.coordinates = a.coordinates ∧
        b.scope = (if a.coordinates.packaging = .ejb then .provided else a.scope) ∧
        r.resolve b = .ok again ∧
        again.location = some (r.artifactPath a.coordinates) ∧
        (spec.path = none → again.location = resolved.location) := by
  obtain ⟨hnamed, rfl⟩ := DependencySpec.toArtifact_eq_ok_iff.1 ha
  obtain ⟨name, hname⟩ := exists_packaging_of_parse hparse hspec
  refine ⟨_, r.resolve_eq_ok hnamed, fun front back => ?_⟩
  generalize hresolved : Artifact.mk _ _ _ = resolved
  have hcoordinates : resolved.coordinates = spec.coordinates := by rw [← hresolved]
  have hscope : resolved.scope = spec.scope := by rw [← hresolved]
  -- the packaging type was read, so its label calls for it again
  have hback : (DependencySpec.suggested resolved).readBack = .suggested resolved := by
    have hpackaging : (DependencySpec.suggested resolved).packaging = .ofText name := by
      rw [← hname]
      exact congrArg Coordinates.packaging hcoordinates
    rw [DependencySpec.readBack, hpackaging, Packaging.ofText_label_ofText, ← hpackaging]
  have hentry :
      ((front ++ .suggested resolved :: back).map DependencySpec.readBack)[front.length]? =
        some (.suggested resolved) := by
    rw [List.map_append, List.map_cons, hback, List.getElem?_append_right (by simp)]
    simp
  have hartifact := DependencySpec.toArtifact_suggested ha hcoordinates
  refine ⟨_, _, _, _, parse_tables path _, hentry, hartifact, rfl, ?_, r.resolve_eq_ok hnamed, rfl,
    fun hpath => ?_⟩
  · show (if resolved.coordinates.packaging = .ejb then _ else resolved.scope) = _
    rw [hcoordinates, hscope]
  · rw [← hresolved]
    show some _ = some ((spec.path.map _).getD _)
    rw [hpath]
    rfl

/-! ### An entry that names a path -/

/-- A descriptor whose only entry names the archive. -/
def locatedText : String :=
  "[[transitive]]\ngroup = 'com.acme'\nname = \"beans\"\nversion = \"1.0\"\ntype = \" EJB \"\n" ++
    "path = \"beans.jar\"\n"

/-- The entry as it is read. -/
def locatedEntry : DependencySpec :=
  ⟨"com.acme", "beans", "1.0", .ejb, .compile, none, some ⟨"beans.jar"⟩⟩

/-- The artifact that the entry names in the directory `app`. -/
def locatedArtifact : Artifact :=
  ⟨locatedEntry.coordinates, .compile, some ⟨"app/beans.jar"⟩⟩

lemma parse_locatedText :
    parse ⟨"app/depsweep.toml"⟩ locatedText = .ok ⟨none, [], [], [locatedEntry]⟩ := by
  have hparse : (parse ⟨"app/depsweep.toml"⟩ locatedText).toOption =
      some ⟨none, [], [], [locatedEntry]⟩ := by decide +kernel
  cases hresult : parse ⟨"app/depsweep.toml"⟩ locatedText with
  | error failure =>
    rw [hresult] at hparse
    cases hparse
  | ok d =>
    rw [hresult] at hparse
    rw [Option.some.inj hparse]

lemma toArtifact_locatedEntry :
    locatedEntry.toArtifact (baseOf ⟨"app/depsweep.toml"⟩) = .ok locatedArtifact := by
  rw [DependencySpec.toArtifact_eq_ok_iff]
  exact ⟨⟨by decide, by decide, by decide⟩, by decide⟩

theorem suggested_readsBack_locatedEntry :
    parse ⟨"app/depsweep.toml"⟩ locatedText = .ok ⟨none, [], [], [locatedEntry]⟩ ∧
    locatedEntry.toArtifact (baseOf ⟨"app/depsweep.toml"⟩) = .ok locatedArtifact ∧
    ∃ resolved, Repository.resolve ⟨⟨"repository"⟩⟩ locatedArtifact = .ok resolved ∧
      ∃ d' entry b again,
        parse ⟨"app/depsweep.toml"⟩ (SuggestionReport.tables [.suggested resolved]) = .ok d' ∧
        d'.dependencies[0]? = some entry ∧
        entry.toArtifact (baseOf ⟨"app/depsweep.toml"⟩) = .ok b ∧
        b.coordinates = locatedEntry.coordinates ∧ b.scope = .provided ∧
        Repository.resolve ⟨⟨"repository"⟩⟩ b = .ok again ∧
        again.location = some ⟨"repository/com/acme/beans/1.0/beans-1.0.jar"⟩ := by
  obtain ⟨resolved, hresolved, hread⟩ := suggested_readsBack parse_locatedText
    (by simp) toArtifact_locatedEntry ⟨⟨"repository"⟩⟩
  obtain ⟨d', entry, b, again, hparse, hentry, hartifact, hcoordinates, hscope, hagain, hlocation,
    -⟩ := hread [] []
  have hplace : Repository.artifactPath ⟨⟨"repository"⟩⟩ locatedArtifact.coordinates =
      ⟨"repository/com/acme/beans/1.0/beans-1.0.jar"⟩ := by decide +kernel
  rw [hplace] at hlocation
  exact ⟨parse_locatedText, toArtifact_locatedEntry, resolved, hresolved, d', entry, b, again,
    hparse, hentry, hartifact, hcoordinates, hscope, hagain, hlocation⟩

/-- The location that an entry gives an artifact is lost in the suggested entry. -/
theorem suggested_losesLocation :
    ¬∀ (path : Path) (text : String) (d : Descriptor) (spec : DependencySpec) (a : Artifact)
        (r : Repository),
      parse path text = .ok d → spec ∈ d.dependencies ++ d.transitive →
      spec.toArtifact (baseOf path) = .ok a →
      ∃ resolved d' entry b again, r.resolve a = .ok resolved ∧
        parse path (SuggestionReport.tables [.suggested resolved]) = .ok d' ∧
        d'.dependencies = [entry] ∧ entry.toArtifact (baseOf path) = .ok b ∧
        b.coordinates = a.coordinates ∧
        b.scope = (if a.coordinates.packaging = .ejb then .provided else a.scope) ∧
        r.resolve b = .ok again ∧ again.location = resolved.location := by
  intro h
  obtain ⟨resolved, d', entry, b, again, hresolved, hparse, hentry, hartifact, hcoordinates, -,
    hagain, hlocation⟩ := h ⟨"app/depsweep.toml"⟩ locatedText _ locatedEntry locatedArtifact
      ⟨⟨"repository"⟩⟩ parse_locatedText (by simp) toArtifact_locatedEntry
  obtain rfl : locatedArtifact = resolved := Except.ok.inj hresolved
  rw [parse_tables] at hparse
  obtain rfl := Except.ok.inj hparse
  obtain rfl : (DependencySpec.suggested locatedArtifact).readBack = entry :=
    (List.cons.inj hentry).1
  obtain ⟨hnamed, rfl⟩ := DependencySpec.toArtifact_eq_ok_iff.1 hartifact
  rw [Repository.resolve_eq_ok _ hnamed] at hagain
  obtain rfl := Except.ok.inj hagain
  have hplace : Repository.artifactPath ⟨⟨"repository"⟩⟩ locatedArtifact.coordinates ≠
      ⟨"app/beans.jar"⟩ := by decide +kernel
  have hmoved : some (Repository.artifactPath ⟨⟨"repository"⟩⟩ locatedArtifact.coordinates) =
      some ⟨"app/beans.jar"⟩ := hcoordinates ▸ hlocation
  exact hplace (Option.some.inj hmoved)

end Descriptor
end ClasspathAudit

import ClasspathAudit.Run
import ClasspathAudit.Proofs.Classification.Indexing

/-
# Where dependencies are looked for

Resolution never fails: an artifact that cannot be placed stays as it is. So an analysis is a
classification of the artifacts that resolution places, and for an artifact without a location its
coordinates decide which classes it declares.
-/
namespace ClasspathAudit

/-! ### Artifacts as they are placed -/

namespace Analyzer

variable {z : Analyzer} {a b : Artifact}

/-- The artifact that resolution comes to. -/
def placed (z : Analyzer) (a : Artifact) : Artifact :=
  if !a.coordinates.packaging.carriesClasses || (z.reactor.outputDir? a).isSome then a
  else (z.repository.resolve a).toOption.getD a

lemma result_resolve (a : Artifact) : (z.resolve a).result = .ok (z.placed a) := by
  rw [resolve, placed]
  split
  · rfl
  · cases z.repository.resolve a <;> rfl

/-- An analysis classifies the artifacts as they are placed. -/
lemma result_analyze (project : Project) : (z.analyze project).result =
    (classify z.files z.reactor z.checks project (project.direct.map z.placed)
      (project.transitive.map z.placed)).result := by
  have hplaced : ∀ artifacts : List Artifact,
      (artifacts.mapM z.resolve).result = .ok (artifacts.map z.placed) := by
    intro artifacts
    rw [Logged.result_mapM]
    simp only [result_resolve]
    exact List.mapM_pure
  rw [analyze, Logged.result_bind, hplaced]
  show (project.transitive.mapM z.resolve >>= _).result = _
  rw [Logged.result_bind, hplaced]
  rfl

/-! ### Places -/

lemma placed_eq (a : Artifact) : z.placed a = a ∨
    a.location = none ∧ z.placed a = a.withLocation (z.repository.artifactPath a.coordinates) := by
  rw [placed]
  split
  · exact .inl rfl
  · cases hlocation : a.location with
    | some path => simp [Repository.resolve, Artifact.isResolved, hlocation, Except.toOption]
    | none =>
      rw [Repository.resolve]
      split
      · exact .inl rfl
      · split
        · exact .inl rfl
        · exact .inr ⟨rfl, rfl⟩

@[simp] lemma coordinates_placed : (z.placed a).coordinates = a.coordinates := by
  rcases placed_eq (z := z) a with h | ⟨-, h⟩ <;> rw [h]
  rfl

@[simp] lemma scope_placed : (z.placed a).scope = a.scope := by
  rcases placed_eq (z := z) a with h | ⟨-, h⟩ <;> rw [h]
  rfl

lemma isRelevant_placed (id : ProjectId) (a : Artifact) :
    Classification.isRelevant id (z.placed a) = Classification.isRelevant id a := by
  simp [Classification.isRelevant, Artifact.isProducedBy]

/-- Where an artifact without a location is placed follows from its coordinates. -/
lemma location_placed_eq (ha : a.location = none) (hb : b.location = none)
    (h : a.coordinates = b.coordinates) : (z.placed a).location = (z.placed b).location := by
  obtain ⟨k, scope, location⟩ := a
  obtain ⟨k', scope', location'⟩ := b
  simp only at ha hb h
  subst ha hb h
  simp only [placed, Reactor.outputDir?, Repository.resolve, Artifact.isResolved]
  split
  · rfl
  · simp only [Option.isSome_none, Bool.false_eq_true, if_false]
    split <;> rfl

end Analyzer

/-! ### Classes by coordinates -/

namespace ClassIndex

variable {fs : FileSystem} {reactor : Reactor} {a b : Artifact}

lemma sourceOf_congr (hcoordinates : a.coordinates = b.coordinates)
    (hlocation : a.location = b.location) : sourceOf fs reactor a = sourceOf fs reactor b := by
  rw [sourceOf, sourceOf, Reactor.outputDir?, Reactor.outputDir?, hcoordinates, hlocation]

lemma declares_congr (hcoordinates : a.coordinates = b.coordinates)
    (hlocation : a.location = b.location) (c : ClassName) :
    Declares fs reactor a c ↔ Declares fs reactor b c := by
  simp only [Declares, ofArtifact, sourceOf_congr hcoordinates hlocation]
  cases classesOf fs (sourceOf fs reactor b) <;> simp [bind, Except.bind, pure, Except.pure]

lemma isUnreadable_congr (hcoordinates : a.coordinates = b.coordinates)
    (hlocation : a.location = b.location) :
    IsUnreadable fs reactor a ↔ IsUnreadable fs reactor b := by
  simp only [IsUnreadable, ofArtifact, sourceOf_congr hcoordinates hlocation]
  cases classesOf fs (sourceOf fs reactor b) <;> simp [bind, Except.bind, pure, Except.pure]

end ClassIndex

namespace Analyzer

variable {z : Analyzer} {a : Artifact}

/-- Whether an artifact with these coordinates and without a location declares a class. -/
def Declares (z : Analyzer) (k : Coordinates) (c : ClassName) : Prop :=
  ClassIndex.Declares z.files z.reactor (z.placed ⟨k, .compile, none⟩) c

/-- Whether indexing an artifact with these coordinates and without a location fails. -/
def IsUnreadable (z : Analyzer) (k : Coordinates) : Prop :=
  ClassIndex.IsUnreadable z.files z.reactor (z.placed ⟨k, .compile, none⟩)

lemma location_placed (h : a.location = none) :
    (z.placed a).location = (z.placed ⟨a.coordinates, .compile, none⟩).location :=
  location_placed_eq (b := ⟨a.coordinates, .compile, none⟩) h rfl rfl

lemma declares_placed (h : a.location = none) (c : ClassName) :
    ClassIndex.Declares z.files z.reactor (z.placed a) c ↔ z.Declares a.coordinates c := by
  refine ClassIndex.declares_congr ?_ (location_placed h) c
  rw [coordinates_placed, coordinates_placed]

lemma isUnreadable_placed (h : a.location = none) :
    ClassIndex.IsUnreadable z.files z.reactor (z.placed a) ↔ z.IsUnreadable a.coordinates := by
  refine ClassIndex.isUnreadable_congr ?_ (location_placed h)
  rw [coordinates_placed, coordinates_placed]

end Analyzer
end ClasspathAudit

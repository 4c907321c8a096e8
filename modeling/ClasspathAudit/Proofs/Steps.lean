import Mathlib.Data.List.Perm.Basic
import Mathlib.Tactic.Common
import ClasspathAudit.Console.Log

/-
# Steps

What is known of steps that may fail from what is known of their parts: a step that depends on
another, and steps for the items of a list. Notes make no difference to that.
-/
namespace ClasspathAudit

/-! ### Steps that may fail -/

section Steps

variable {ε α β : Type} {f : α → Except ε β} {l : List α}

lemma exists_of_bind_eq_ok {x : Except ε α} {next : α → Except ε β} {b : β}
    (h : x >>= next = .ok b) : ∃ a, x = .ok a ∧ next a = .ok b := by
  cases x with
  | error e => cases h
  | ok a => exact ⟨a, rfl, h⟩

lemma mem_of_mapM_eq_ok {r : List β} (h : l.mapM f = .ok r) (b : β) :
    b ∈ r ↔ ∃ a ∈ l, f a = .ok b := by
  induction l generalizing r with
  | nil =>
    obtain rfl : [] = r := Except.ok.inj h
    simp
  | cons a l ih =>
    rw [List.mapM_cons] at h
    cases ha : f a with
    | error e =>
      rw [ha] at h
      cases h
    | ok b' =>
      cases hl : l.mapM f with
      | error e =>
        rw [ha, hl] at h
        cases h
      | ok r' =>
        rw [ha, hl] at h
        obtain rfl : b' :: r' = r := Except.ok.inj h
        simp [ih hl, ha, eq_comm]

/-- Steps for the items of a list succeed if each of them does, and give one result for each. -/
lemma mapM_eq_ok_iff {r : List β} :
    l.mapM f = .ok r ↔ List.Forall₂ (fun a b => f a = .ok b) l r := by
  induction l generalizing r with
  | nil =>
    rw [List.mapM_nil, List.forall₂_nil_left_iff]
    exact ⟨fun h => (Except.ok.inj h).symm, fun h => h ▸ rfl⟩
  | cons a l ih =>
    rw [List.mapM_cons, List.forall₂_cons_left_iff]
    constructor
    · intro h
      obtain ⟨b, hb, h⟩ := exists_of_bind_eq_ok h
      obtain ⟨r', hr', h⟩ := exists_of_bind_eq_ok h
      exact ⟨b, r', hb, ih.1 hr', (Except.ok.inj h).symm⟩
    · rintro ⟨b, r', hb, hr', rfl⟩
      rw [hb, ih.2 hr']
      rfl

lemma mapM_eq_ok_map {g : α → β} (h : ∀ a ∈ l, f a = .ok (g a)) : l.mapM f = .ok (l.map g) := by
  rw [mapM_eq_ok_iff, List.forall₂_map_right_iff]
  exact List.forall₂_same.2 h

lemma map_mapM {γ : Type} (g : β → γ) (l : List α) :
    (l.mapM f).map (List.map g) = l.mapM fun a => (f a).map g := by
  induction l with
  | nil => rfl
  | cons a l ih =>
    rw [List.mapM_cons, List.mapM_cons, ← ih]
    cases f a with
    | error e => rfl
    | ok b => cases l.mapM f <;> rfl

lemma mapM_congr {g : α → Except ε β} (h : ∀ a ∈ l, f a = g a) : l.mapM f = l.mapM g := by
  induction l with
  | nil => rfl
  | cons a l ih =>
    rw [List.forall_mem_cons] at h
    rw [List.mapM_cons, List.mapM_cons, h.1, ih h.2]

/-- The order of the items makes no difference to the results but for their order. -/
lemma exists_perm_of_mapM_eq_ok {l' : List α} {r : List β} (h : l.Perm l')
    (hl : l.mapM f = .ok r) : ∃ r', l'.mapM f = .ok r' ∧ r'.Perm r := by
  obtain ⟨r', hl', hperm⟩ := List.perm_comp_forall₂ h.symm (mapM_eq_ok_iff.1 hl)
  exact ⟨r', mapM_eq_ok_iff.2 hl', hperm⟩

lemma mapM_eq_error_iff : (∃ e, l.mapM f = .error e) ↔ ∃ a ∈ l, ∃ e, f a = .error e := by
  induction l with
  | nil =>
    constructor
    · rintro ⟨e, he⟩
      cases he
    · rintro ⟨a, ha, -⟩
      cases ha
  | cons a l ih =>
    rw [List.mapM_cons]
    simp only [List.mem_cons, exists_eq_or_imp]
    cases ha : f a with
    | error e => exact ⟨fun _ => .inl ⟨e, rfl⟩, fun _ => ⟨e, rfl⟩⟩
    | ok b =>
      rw [← ih]
      cases l.mapM f with
      | error e => exact ⟨fun _ => .inr ⟨e, rfl⟩, fun _ => ⟨e, rfl⟩⟩
      | ok r => simp [bind, Except.bind, pure, Except.pure]

/-- Steps for the items of a list fail as one of them does. -/
lemma exists_of_mapM_eq_error {e : ε} (h : l.mapM f = .error e) : ∃ a ∈ l, f a = .error e := by
  induction l with
  | nil => cases h
  | cons a l ih =>
    rw [List.mapM_cons] at h
    cases ha : f a with
    | error e' =>
      rw [ha] at h
      cases h
      exact ⟨a, List.mem_cons_self, ha⟩
    | ok b =>
      cases hl : l.mapM f with
      | error e' =>
        rw [ha, hl] at h
        cases h
        obtain ⟨a', ha', he⟩ := ih hl
        exact ⟨a', List.mem_cons_of_mem _ ha', he⟩
      | ok r =>
        rw [ha, hl] at h
        cases h

lemma exists_of_mapM_eq_ok {r : List β} (h : l.mapM f = .ok r) {a : α} (ha : a ∈ l) :
    ∃ b, f a = .ok b := by
  cases hfa : f a with
  | ok b => exact ⟨b, rfl⟩
  | error e =>
    obtain ⟨e', he'⟩ := mapM_eq_error_iff.2 ⟨a, ha, e, hfa⟩
    rw [he'] at h
    cases h

lemma exists_mapM_eq_ok (h : ∀ a ∈ l, ∃ b, f a = .ok b) : ∃ r, l.mapM f = .ok r := by
  cases hl : l.mapM f with
  | ok r => exact ⟨r, rfl⟩
  | error e =>
    obtain ⟨a, ha, e, he⟩ := mapM_eq_error_iff.1 ⟨e, hl⟩
    obtain ⟨b, hb⟩ := h a ha
    rw [he] at hb
    cases hb

end Steps

/-! ### Steps with notes -/

namespace Logged

instance : LawfulMonad Logged := by
  refine LawfulMonad.mk' Logged ?_ ?_ ?_
  · rintro α ⟨notes, failure | a⟩
    · rfl
    · show (⟨notes ++ [], .ok a⟩ : Logged α) = _
      rw [List.append_nil]
  · intro α β a next
    rfl
  · rintro α β γ ⟨notes, failure | a⟩ next next'
    · rfl
    · show andThen (andThen ⟨notes, .ok a⟩ next) next' = andThen ⟨notes, .ok a⟩ _
      simp only [andThen]
      cases hnext : (next a).result with
      | error failure => simp [bind, andThen, hnext]
      | ok b => simp [bind, andThen, hnext, List.append_assoc]

lemma result_map {α β : Type} (f : α → β) (step : Logged α) :
    (f <$> step).result = f <$> step.result := by
  rw [← bind_pure_comp, result_bind, ← bind_pure_comp]
  rfl

/-- Steps for the items of a list fail if one of them fails. -/
lemma result_mapM {α β : Type} (step : α → Logged β) (items : List α) :
    (items.mapM step).result = items.mapM fun a => (step a).result := by
  induction items with
  | nil => rfl
  | cons a items ih => simp [List.mapM_cons, result_map, ih]

end Logged

end ClasspathAudit

import ClasspathAudit.Console.Style
import ClasspathAudit.Failure

/-
# Notes

What the program tells its user on the way to a result. Steps are values that carry their notes in
order together with what they come to: a result, or the failure that ends them. The notes made
before a failure are kept.
-/
namespace ClasspathAudit

/-! ### Notes -/

/-- One line for the user. -/
inductive Note
  /-- A step of the work, of interest to those who ask for every step. -/
  | detail (text : String)
  /-- What a phase found in the project of that name. -/
  | summary (project text : String)
  /-- Something that may be wrong. -/
  | warning (text : String)
deriving DecidableEq

namespace Note

/-- Whether a note is shown; details are shown on request. -/
def isShown (verbose : Bool) : Note → Bool
  | detail _ => verbose
  | summary .. | warning _ => true

/-- A note as a line. -/
def line (colors : Bool) : Note → String
  | detail text => "  " ++ (Style.colored .blue).apply colors "ℹ" ++ " " ++ text
  | summary project text =>
    Style.dim.apply colors "→" ++ " " ++ Style.dim.apply colors (project ++ ":") ++ " " ++ text
  | warning text => (Style.colored .yellow).apply colors "⚠" ++ " " ++ text

/-- The lines of the notes that are shown. -/
def lines (colors verbose : Bool) (notes : List Note) : List String :=
  (notes.filter (isShown verbose)).map (line colors)

end Note

/-! ### Steps with notes -/

/-- What a step comes to, with the notes made on the way. -/
structure Logged (α : Type) where
  /-- The notes, in order. -/
  notes : List Note
  /-- The result, or the failure that ended the step. -/
  result : Except Failure α

namespace Logged

/-- A step that comes to `a` at once. -/
def done {α : Type} (a : α) : Logged α := ⟨[], .ok a⟩

/-- A step, then another that depends on its result. -/
def andThen {α β : Type} (step : Logged α) (next : α → Logged β) : Logged β :=
  match step.result with
  | .ok a => ⟨step.notes ++ (next a).notes, (next a).result⟩
  | .error failure => ⟨step.notes, .error failure⟩

instance : Monad Logged where
  pure := done
  bind := andThen

/-- A step that makes notes and comes to nothing else. -/
def write (notes : List Note) : Logged Unit := ⟨notes, .ok ()⟩

/-- A step that makes no notes. -/
def ofExcept {α : Type} (result : Except Failure α) : Logged α := ⟨[], result⟩

@[simp] theorem result_pure {α : Type} (a : α) : (pure a : Logged α).result = .ok a := rfl

@[simp] theorem result_write (notes : List Note) : (write notes).result = .ok () := rfl

@[simp] theorem result_ofExcept {α : Type} (result : Except Failure α) :
    (ofExcept result).result = result := rfl

@[simp] theorem result_bind {α β : Type} (step : Logged α) (next : α → Logged β) :
    (step >>= next).result = step.result >>= fun a => (next a).result := by
  show (andThen step next).result = _
  unfold andThen
  cases step.result <;> rfl

end Logged
end ClasspathAudit

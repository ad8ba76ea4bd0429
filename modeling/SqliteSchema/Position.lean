namespace SqliteSchema

/-- A place in a text, counted in characters. All three numbers start at zero; a line ends with
its line feed. -/
structure Position where
  absolute : Nat
  line : Nat
  column : Nat
  deriving DecidableEq, Repr

namespace Position

def start : Position := ⟨0, 0, 0⟩

/-- The place behind `c`. -/
def next (p : Position) (c : Char) : Position :=
  if c = '\n' then ⟨p.absolute + 1, p.line + 1, 0⟩ else ⟨p.absolute + 1, p.line, p.column + 1⟩

/-- The place behind a text that starts at `p`. -/
def after (p : Position) (cs : List Char) : Position := cs.foldl next p

/-- Lines and columns are shown from one on. -/
def text (p : Position) : String := s!"line {p.line + 1}, column {p.column + 1}"

theorem after_append (p : Position) (cs ds : List Char) :
    p.after (cs ++ ds) = (p.after cs).after ds := by
  simp [after]

theorem absolute_after (p : Position) (cs : List Char) :
    (p.after cs).absolute = p.absolute + cs.length := by
  induction cs generalizing p with
  | nil => rfl
  | cons c cs ih =>
    have h : (p.next c).absolute = p.absolute + 1 := by unfold next; split <;> rfl
    rw [after, List.foldl_cons, ← after, ih, h, List.length_cons]
    omega

end Position

end SqliteSchema

/-
Square arrays of a known extent.

A `Grid d α` stores its cells row by row; `get` is its view as a function of row and column and `ofFn` builds it from one:
`get_ofFn` says that the two are inverse, `ext` that the view is the whole content. `set` writes one cell and leaves the others
(`get_set`); `scatter` writes a list of values into a list of cells, one after the other.
-/


namespace MomentProgram

/-- a `d × d` array, stored row by row -/
structure Grid (d : Nat) (α : Type) where
  cells : Vector α (d * d)
  deriving DecidableEq, Repr

namespace Grid

variable {d : Nat} {α β : Type}

theorem cell_lt (r c : Fin d) : r.val * d + c.val < d * d :=
  Nat.lt_of_lt_of_le (Nat.add_lt_add_left c.isLt _) (by
    rw [← Nat.succ_mul]; exact Nat.mul_le_mul_right d r.isLt)

theorem row_lt (k : Fin (d * d)) : k.val / d < d := Nat.div_lt_of_lt_mul k.isLt

theorem col_lt (k : Fin (d * d)) : k.val % d < d :=
  Nat.mod_lt _ (Nat.pos_of_ne_zero fun h => by have := k.isLt; subst h; simp at this)

def get (g : Grid d α) (r c : Fin d) : α :=
  have := cell_lt r c
  g.cells[r.val * d + c.val]

/-- the grid with given cells -/
def ofFn (f : Fin d → Fin d → α) : Grid d α :=
  ⟨Vector.ofFn fun k => f ⟨k.val / d, row_lt k⟩ ⟨k.val % d, col_lt k⟩⟩

theorem cell_div (r c : Fin d) : (r.val * d + c.val) / d = r.val := by
  have hd : 0 < d := Nat.lt_of_le_of_lt (Nat.zero_le _) r.isLt
  rw [Nat.mul_comm, Nat.mul_add_div hd, Nat.div_eq_of_lt c.isLt, Nat.add_zero]

theorem cell_mod (r c : Fin d) : (r.val * d + c.val) % d = c.val := by
  rw [Nat.mul_comm, Nat.mul_add_mod, Nat.mod_eq_of_lt c.isLt]

@[simp] theorem get_ofFn (f : Fin d → Fin d → α) (r c : Fin d) : (ofFn f).get r c = f r c := by
  simp [get, ofFn, cell_div, Nat.mod_eq_of_lt c.isLt]

theorem ext {g h : Grid d α} (e : ∀ r c, g.get r c = h.get r c) : g = h := by
  cases g with | mk a => cases h with | mk b =>
  congr 1
  apply Vector.ext
  intro i hi
  have := e ⟨i / d, row_lt ⟨i, hi⟩⟩ ⟨i % d, col_lt ⟨i, hi⟩⟩
  have hidx : i / d * d + i % d = i := by rw [Nat.mul_comm]; exact Nat.div_add_mod i d
  simpa [get, hidx] using this

/-- the grid with another value in one cell -/
def set (g : Grid d α) (r c : Fin d) (a : α) : Grid d α := ⟨g.cells.set (r.val * d + c.val) a (cell_lt r c)⟩

theorem get_set (g : Grid d α) (r c r' c' : Fin d) (a : α) :
    (g.set r c a).get r' c' = if r = r' ∧ c = c' then a else g.get r' c' := by
  by_cases h : r.val * d + c.val = r'.val * d + c'.val
  · have hr : r = r' := Fin.ext (by rw [← cell_div r c, h, cell_div])
    have hc : c = c' := Fin.ext (by rw [← cell_mod r c, h, cell_mod])
    simp [get, set, hr, hc]
  · have hne : ¬(r = r' ∧ c = c') := fun e => h (by rw [e.1, e.2])
    simp [get, set, hne, Vector.getElem_set_ne _ _ h]

/-- values written into cells one after the other, as far as both lists reach -/
def scatter (g : Grid d α) (ps : List (Fin d × Fin d)) (vs : List α) : Grid d α :=
  (ps.zip vs).foldl (fun g p => g.set p.1.1 p.1.2 p.2) g

def map (f : α → β) (g : Grid d α) : Grid d β := ⟨g.cells.map f⟩

@[simp] theorem get_map (f : α → β) (g : Grid d α) (r c : Fin d) : (g.map f).get r c = f (g.get r c) := by
  simp [get, map]

def toList (g : Grid d α) : List α := g.cells.toList

/-- the values of two mirrored cells agree in the sense of a test -/
def isSymmetric (same : α → α → Bool) (g : Grid d α) : Bool :=
  (List.finRange d).all fun r => (List.finRange d).all fun c => same (g.get r c) (g.get c r)

theorem isSymmetric_iff {same : α → α → Bool} {g : Grid d α} :
    g.isSymmetric same = true ↔ ∀ r c, same (g.get r c) (g.get c r) = true := by
  simp [isSymmetric]

end Grid

end MomentProgram

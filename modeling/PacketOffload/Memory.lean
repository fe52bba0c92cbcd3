import Std.Data.TreeMap

/-!
# Memories

A memory holds a cell at every address. Only the cells that were written are kept; all others hold
the default, which is zero for the words used here. The view of a memory is `get`, and every
operation is stated through it (`get_set`, `get_setRange`).
-/

namespace PacketOffload

/-- A memory with cells of type `α` at the natural numbers. -/
structure Memory (α : Type) where
  written : Std.TreeMap Nat α

namespace Memory

variable {α : Type}

def empty : Memory α := ⟨∅⟩

instance : Inhabited (Memory α) := ⟨empty⟩

def get [Inhabited α] (m : Memory α) (address : Nat) : α := m.written.getD address default

/-- The memory after one cell was written. -/
def set (m : Memory α) (address : Nat) (cell : α) : Memory α := ⟨m.written.insert address cell⟩

/-- The `count` cells from `start` on. -/
def getRange [Inhabited α] (m : Memory α) (start count : Nat) : List α :=
  (List.range count).map fun i => m.get (start + i)

/-- The memory after consecutive cells from `start` on were written. -/
def setRange (m : Memory α) (start : Nat) : List α → Memory α
  | [] => m
  | cell :: rest => (m.set start cell).setRange (start + 1) rest

@[simp] theorem get_empty [Inhabited α] (a : Nat) : (empty : Memory α).get a = default := by
  simp [empty, get]

theorem get_set [Inhabited α] (m : Memory α) (a b : Nat) (cell : α) :
    (m.set a cell).get b = if a = b then cell else m.get b := by
  simp [get, set, Std.TreeMap.getD_insert]

theorem get_setRange [Inhabited α] (m : Memory α) (start b : Nat) (cells : List α) :
    (m.setRange start cells).get b =
      if start ≤ b then (cells[b - start]?).getD (m.get b) else m.get b := by
  induction cells generalizing m start with
  | nil => simp [setRange]
  | cons cell rest ih =>
    rw [setRange, ih, get_set]
    by_cases h : start = b
    · subst h; simp [show ¬ start + 1 ≤ start by omega]
    · by_cases hlt : start ≤ b
      · have hsub : b - start = (b - (start + 1)) + 1 := by omega
        simp [h, hlt, show start + 1 ≤ b by omega, hsub]
      · simp [h, hlt, show ¬ start + 1 ≤ b by omega]

@[simp] theorem length_getRange [Inhabited α] (m : Memory α) (start count : Nat) :
    (m.getRange start count).length = count := by
  simp [getRange]

end Memory

end PacketOffload

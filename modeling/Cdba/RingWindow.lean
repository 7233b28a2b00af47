/-!
# Windows of a circular array

A circular array of `size` cells is addressed modulo `size`.  The occupied
part of such an array is a *window*: a start index and a number of cells,
read off in order with wrap-around.  This module relates windows to the three
operations a ring buffer performs on them: dropping cells at the front,
splitting, and storing a contiguous block behind the end.
-/

namespace RingWindow

/-- The index one cell after `index`, with wrap-around. -/
def next (size index : Nat) : Nat :=
  (index + 1) % size

/-- `count` cells of a circular array, starting at `start`. -/
def window (cells : Nat → α) (size start count : Nat) : List α :=
  (List.range count).map fun offset =>
    cells ((start + offset) % size)

/-- Overwrite the cells `position`, `position + 1`, ... with a block. -/
def store (cells : Nat → α) (position : Nat) (block : List α) : Nat → α :=
  fun index =>
    if position ≤ index then
      block[index - position]?.getD (cells index)
    else
      cells index

@[simp] theorem length_window
    (cells : Nat → α)
    (size start count : Nat) :
    (window cells size start count).length = count := by
  simp [window]

@[simp] theorem window_zero
    (cells : Nat → α)
    (size start : Nat) :
    window cells size start 0 = [] :=
  rfl

/-- An index below twice the size wraps at most once. -/
theorem mod_eq_wrap
    (size index : Nat)
    (inRange : index < 2 * size) :
    index % size = if index < size then index else index - size := by
  by_cases small : index < size
  · simp [small, Nat.mod_eq_of_lt]
  · simp only [small, ↓reduceIte]
    rw [Nat.mod_eq_sub_mod (by omega)]
    exact Nat.mod_eq_of_lt (by omega)

/-- A window splits at any number of cells. -/
theorem window_add
    (cells : Nat → α)
    (size start first second : Nat) :
    window cells size start (first + second) =
      window cells size start first ++
        window cells size ((start + first) % size) second := by
  unfold window
  rw [List.range_add, List.map_append, List.map_map]
  congr 1
  apply List.map_congr_left
  intro offset _
  simp only [Function.comp_apply, Nat.mod_add_mod, Nat.add_assoc]

/-- The first cell of a nonempty window is the cell at its start. -/
theorem window_succ
    (cells : Nat → α)
    {size start : Nat}
    (inRange : start < size)
    (count : Nat) :
    window cells size start (count + 1) =
      cells start :: window cells size (next size start) count := by
  rw [Nat.add_comm count 1, window_add]
  simp [window, next, Nat.mod_eq_of_lt inRange]

/-- Windows only depend on the cells they visit. -/
theorem window_congr
    {cells cells' : Nat → α}
    {size start count : Nat}
    (same :
      ∀ offset, offset < count →
        cells ((start + offset) % size) =
          cells' ((start + offset) % size)) :
    window cells size start count = window cells' size start count := by
  unfold window
  apply List.map_congr_left
  intro offset member
  exact same offset (List.mem_range.mp member)

/-- Cells outside the stored block keep their value. -/
theorem store_outside
    (cells : Nat → α)
    {position index : Nat}
    {block : List α}
    (outside : index < position ∨ position + block.length ≤ index) :
    store cells position block index = cells index := by
  unfold store
  by_cases before : position ≤ index
  · have beyond : block.length ≤ index - position := by omega
    simp [before, beyond]
  · simp [before]

/-- A stored block reads back as itself when it does not run off the end. -/
theorem window_store_block
    (cells : Nat → α)
    {size position : Nat}
    {block : List α}
    (fits : position + block.length ≤ size) :
    window (store cells position block) size position block.length =
      block := by
  apply List.ext_getElem
  · simp
  · intro offset _ inBlock
    have wrapped : (position + offset) % size = position + offset :=
      Nat.mod_eq_of_lt (by omega)
    simp [window, store, wrapped, inBlock]

/--
Storing a block right behind a window extends the window by the block,
provided the block fits before the end of the array and the window does not
grow beyond the whole array.
-/
theorem window_store
    (cells : Nat → α)
    {size start count : Nat}
    {block : List α}
    (inRange : start < size)
    (room : count + block.length ≤ size)
    (fits : (start + count) % size + block.length ≤ size) :
    window (store cells ((start + count) % size) block)
        size start (count + block.length) =
      window cells size start count ++ block := by
  rw [window_add, window_store_block cells fits]
  congr 1
  apply window_congr
  intro offset offsetLt
  apply store_outside
  -- The window and the block are disjoint whether or not either of them wraps.
  rw [mod_eq_wrap size (start + offset) (by omega)]
  rw [mod_eq_wrap size (start + count) (by omega)] at fits ⊢
  split <;> split <;> simp_all <;> omega

end RingWindow

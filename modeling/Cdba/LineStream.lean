/-!
# Lines in a stream of symbols

A stream of symbols, some of which end a line, consists of complete lines and
an open line behind them, in exactly one way.  Lines keep the symbol that ends
them, so that nothing is lost in cutting a stream.
-/

namespace LineStream

variable {α β : Type}

/-- Symbols that end a line come last, and there is one. -/
structure IsLine (isEnd : α → Bool) (line : List α) : Prop where
  shape :
    ∃ text last,
      line = text ++ [last] ∧
        (∀ symbol, symbol ∈ text → isEnd symbol = false) ∧
        isEnd last = true

/-- No line ends in a stream. -/
def Open (isEnd : α → Bool) (stream : List α) : Prop :=
  ∀ symbol, symbol ∈ stream → isEnd symbol = false

/-- The complete lines of a stream, and the open line behind them. -/
def cut (isEnd : α → Bool) : List α → List (List α) × List α
  | [] => ([], [])
  | symbol :: rest =>
      let later := cut isEnd rest
      if isEnd symbol then
        ([symbol] :: later.1, later.2)
      else
        match later.1 with
        | [] => ([], symbol :: later.2)
        | line :: others => ((symbol :: line) :: others, later.2)

/-- The complete lines of a stream. -/
def lines (isEnd : α → Bool) (stream : List α) : List (List α) :=
  (cut isEnd stream).1

/-- What follows the last complete line. -/
def tail (isEnd : α → Bool) (stream : List α) : List α :=
  (cut isEnd stream).2

variable {isEnd : α → Bool}

/-- Cutting loses nothing. -/
theorem flatten_lines_append_tail
    (isEnd : α → Bool)
    (stream : List α) :
    (lines isEnd stream).flatten ++ tail isEnd stream = stream := by
  unfold lines tail
  induction stream with
  | nil =>
      rfl
  | cons symbol rest inductionHypothesis =>
      rw [cut]
      split
      · simpa using inductionHypothesis
      · split
        · rename_i none
          simpa [none] using inductionHypothesis
        · rename_i line others shape
          simpa [shape] using inductionHypothesis

/-- What is cut off are lines, and no line ends behind them. -/
theorem isLine_of_mem_lines
    (isEnd : α → Bool)
    (stream : List α) :
    (∀ line, line ∈ lines isEnd stream → IsLine isEnd line) ∧
      Open isEnd (tail isEnd stream) := by
  unfold lines tail
  induction stream with
  | nil =>
      exact ⟨nofun, nofun⟩
  | cons symbol rest inductionHypothesis =>
      obtain ⟨areLines, isOpen⟩ := inductionHypothesis
      rw [cut]
      split
      · rename_i ends
        refine ⟨fun line member => ?_, isOpen⟩
        rcases List.mem_cons.mp member with rfl | later
        · exact ⟨[], symbol, rfl, nofun, ends⟩
        · exact areLines line later
      · rename_i inside
        split
        · refine ⟨nofun, fun other member => ?_⟩
          rcases List.mem_cons.mp member with rfl | later
          · exact eq_false_of_ne_true inside
          · exact isOpen other later
        · rename_i first others shape
          refine ⟨fun line member => ?_, isOpen⟩
          rw [shape] at areLines
          rcases List.mem_cons.mp member with rfl | later
          · obtain ⟨text, last, same, isText, ends⟩ :=
              (areLines first List.mem_cons_self).shape
            refine ⟨symbol :: text, last, by rw [same]; rfl, ?_, ends⟩
            intro other member
            rcases List.mem_cons.mp member with rfl | inText
            · exact eq_false_of_ne_true inside
            · exact isText other inText
          · exact areLines line (List.mem_cons_of_mem _ later)

/-- A stream without an end of line has no line. -/
theorem cut_open
    {stream : List α}
    (isOpen : Open isEnd stream) :
    cut isEnd stream = ([], stream) := by
  induction stream with
  | nil =>
      rfl
  | cons symbol rest inductionHypothesis =>
      have inside := isOpen symbol List.mem_cons_self
      rw [cut, inductionHypothesis fun other member =>
        isOpen other (List.mem_cons_of_mem _ member)]
      simp [inside]

/-- A line at the front is cut off as it is. -/
theorem cut_line_append
    {line : List α}
    (isLine : IsLine isEnd line)
    (stream : List α) :
    cut isEnd (line ++ stream) =
      (line :: (cut isEnd stream).1, (cut isEnd stream).2) := by
  obtain ⟨text, last, rfl, isText, ends⟩ := isLine.shape
  induction text with
  | nil =>
      simp [cut, ends]
  | cons symbol rest inductionHypothesis =>
      have inside := isText symbol List.mem_cons_self
      have later :=
        inductionHypothesis
          ⟨rest, last, rfl,
            fun other member => isText other (List.mem_cons_of_mem _ member),
            ends⟩
          fun other member => isText other (List.mem_cons_of_mem _ member)
      rw [List.cons_append, List.cons_append, cut, later]
      simp [inside]

theorem lines_line
    {line : List α}
    (isLine : IsLine isEnd line) :
    lines isEnd line = [line] := by
  have whole := cut_line_append isLine []
  rw [List.append_nil] at whole
  rw [lines, whole]
  rfl

/-- Lines and an open line are cut into just these. -/
theorem cut_flatten_append
    {front : List (List α)}
    {last : List α}
    (areLines : ∀ line, line ∈ front → IsLine isEnd line)
    (isOpen : Open isEnd last) :
    cut isEnd (front.flatten ++ last) = (front, last) := by
  induction front with
  | nil =>
      exact cut_open isOpen
  | cons line rest inductionHypothesis =>
      rw [List.flatten_cons, List.append_assoc,
        cut_line_append (areLines line List.mem_cons_self),
        inductionHypothesis fun other member =>
          areLines other (List.mem_cons_of_mem _ member)]

/-- Behind complete lines, a stream is cut as it is by itself. -/
theorem lines_flatten_append
    {front : List (List α)}
    (areLines : ∀ line, line ∈ front → IsLine isEnd line)
    (stream : List α) :
    lines isEnd (front.flatten ++ stream) =
        front ++ lines isEnd stream ∧
      tail isEnd (front.flatten ++ stream) = tail isEnd stream := by
  unfold lines tail
  induction front with
  | nil =>
      exact ⟨rfl, rfl⟩
  | cons line rest inductionHypothesis =>
      obtain ⟨sameLines, sameTail⟩ :=
        inductionHypothesis fun other member =>
          areLines other (List.mem_cons_of_mem _ member)
      rw [List.flatten_cons, List.append_assoc,
        cut_line_append (areLines line List.mem_cons_self)]
      exact ⟨by rw [sameLines]; rfl, sameTail⟩

/-- Cutting a stream only looks at where its lines end. -/
theorem cut_map
    {isEnd' : β → Bool}
    (view : α → β)
    (ends : ∀ symbol, isEnd' (view symbol) = isEnd symbol)
    (stream : List α) :
    cut isEnd' (stream.map view) =
      ((cut isEnd stream).1.map (List.map view),
        (cut isEnd stream).2.map view) := by
  induction stream with
  | nil =>
      rfl
  | cons symbol rest inductionHypothesis =>
      rw [List.map_cons, cut, cut, inductionHypothesis, ends]
      cases isEnd symbol with
      | true => rfl
      | false =>
          cases (cut isEnd rest).1 with
          | nil => rfl
          | cons line others => rfl

end LineStream

import Cdba.FrameStream
import Mathlib.Data.List.Infix

/-!
# Prefix-free codes

A code in which no word begins another one can be read off a stream without
separators.  So it is a frame format, and whoever reads words off a stream of
words reads the ones that were written.
-/

/-- No word of the code is empty or the beginning of another one. -/
structure PrefixFree
    {Symbol Word : Type}
    (encode : Word → List Symbol) :
    Prop where
  ne_nil : ∀ word, encode word ≠ []
  unique :
    ∀ {first second}, encode first <+: encode second → first = second

namespace PrefixFree

variable {Symbol Word : Type} {encode : Word → List Symbol}

/-- At most one word is at the front of a stream. -/
theorem unique_front
    (free : PrefixFree encode)
    {first second : Word}
    {stream : List Symbol}
    (front : encode first <+: stream)
    (front' : encode second <+: stream) :
    first = second := by
  rcases List.prefix_or_prefix_of_prefix front front' with begins | begins
  · exact free.unique begins
  · exact (free.unique begins).symm

open Classical in
/-- The word at the front of a stream, and what comes behind it. -/
noncomputable def next?
    (encode : Word → List Symbol)
    (stream : List Symbol) :
    Option (Word × List Symbol) :=
  if front : ∃ word, encode word <+: stream then
    some (front.choose, stream.drop (encode front.choose).length)
  else
    none

/-- A prefix-free code is a format whose frames are the words. -/
noncomputable def format (free : PrefixFree encode) :
    FrameFormat Symbol Word where
  encode := encode
  next? := next? encode
  encode_ne_nil := free.ne_nil
  next?_encode_append := by
    intro word rest
    have front : ∃ word', encode word' <+: encode word ++ rest :=
      ⟨word, List.prefix_append _ _⟩
    have same :=
      free.unique_front front.choose_spec (List.prefix_append _ rest)
    rw [next?, dif_pos front, same, List.drop_left]
  eq_encode_append := by
    intro stream word rest found
    unfold next? at found
    split at found
    · rename_i front
      simp only [Option.some.injEq, Prod.mk.injEq] at found
      obtain ⟨rfl, rfl⟩ := found
      exact (List.prefix_iff_eq_append.mp front.choose_spec).symm
    · cases found

/-- What is read off a stream of words are the first words that were written. -/
theorem begins
    (free : PrefixFree encode)
    {read written : List Word}
    (front : read.flatMap encode <+: written.flatMap encode) :
    read <+: written := by
  obtain ⟨rest, stream⟩ := front
  have sameStream :
      free.format.encodeAll written = free.format.encodeAll read ++ rest :=
    stream.symm
  obtain ⟨remaining, split, _⟩ := FrameFormat.encodeAll_eq_append sameStream
  exact ⟨remaining, split.symm⟩

/-! ## Codes -/

/-- Words of one symbol each. -/
theorem of_single
    {symbol : Word → Symbol}
    (distinct :
      ∀ {first second}, symbol first = symbol second → first = second) :
    PrefixFree fun word => [symbol word] where
  ne_nil := fun _ => List.cons_ne_nil _ _
  unique := fun begins =>
    distinct (List.cons_prefix_cons.mp begins).1

/-- A body in front of a symbol that occurs in no body. -/
theorem of_terminated
    {body : Word → List Symbol}
    {terminator : Symbol}
    (inside : ∀ word, terminator ∉ body word)
    (distinct :
      ∀ {first second}, body first = body second → first = second) :
    PrefixFree fun word => body word ++ [terminator] where
  ne_nil := fun _ empty => by simp at empty
  unique := by
    intro first second begins
    rcases List.prefix_concat_iff.mp begins with same | within
    · exact distinct (List.append_inj_left' same rfl)
    · have member : terminator ∈ body second :=
        within.subset (List.mem_append_right _ (List.mem_singleton.mpr rfl))
      exact absurd member (inside second)

/-- Two codes of which no words begin with the same symbol. -/
theorem sum
    {Word' : Type}
    {encode' : Word' → List Symbol}
    (free : PrefixFree encode)
    (free' : PrefixFree encode')
    (apart :
      ∀ word word', (encode word).head? ≠ (encode' word').head?) :
    PrefixFree (Sum.elim encode encode') where
  ne_nil := by
    rintro (word | word)
    · exact free.ne_nil word
    · exact free'.ne_nil word
  unique := by
    have heads :
        ∀ {first second : List Symbol},
          first ≠ [] → first <+: second → first.head? = second.head? := by
      intro first second nonempty begins
      obtain ⟨rest, rfl⟩ := begins
      rw [List.head?_append_of_ne_nil _ nonempty]
    rintro (first | first) (second | second) begins
    · exact congrArg Sum.inl (free.unique begins)
    · exact absurd (heads (free.ne_nil _) begins) (apart _ _)
    · exact absurd (heads (free'.ne_nil _) begins).symm (apart _ _)
    · exact congrArg Sum.inr (free'.unique begins)

end PrefixFree

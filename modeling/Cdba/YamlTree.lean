import Cdba.FtdiOptionLines

namespace Cdba

/-!
# A configuration as a tree

libyaml delivers a document as the events of a tree of nodes.  Every node ends
the mappings that it starts, so that in front of any event it is known how many
mappings there still are to end.
-/

/-! ## Nodes and their events -/

/-- A node of a YAML document. -/
inductive YamlNode where
  | aliased
  | scalar (value : List UInt8)
  | sequence (items : List YamlNode)
  | mapping (pairs : List (YamlNode × YamlNode))

mutual

/-- The events of a node. -/
def YamlNode.events : YamlNode → List YamlEvent
  | .aliased => [.alias]
  | .scalar value => [.scalar value]
  | .sequence items => .sequenceStart :: (itemsEvents items ++ [.sequenceEnd])
  | .mapping pairs => .mappingStart :: (pairsEvents pairs ++ [.mappingEnd])

/-- The events of the items of a sequence. -/
def itemsEvents : List YamlNode → List YamlEvent
  | [] => []
  | item :: items => item.events ++ itemsEvents items

/-- The events of the pairs of a mapping. -/
def pairsEvents : List (YamlNode × YamlNode) → List YamlEvent
  | [] => []
  | (key, node) :: pairs => key.events ++ (node.events ++ pairsEvents pairs)

end

/-- The events of some documents, and the end of their stream. -/
def documentEvents : List YamlNode → List YamlEvent
  | [] => [.streamEnd]
  | root :: documents =>
      .documentStart ::
        (root.events ++ .documentEnd :: documentEvents documents)

/-- The events of a stream with a list of documents. -/
def streamEvents (documents : List YamlNode) : List YamlEvent :=
  .streamStart :: documentEvents documents

/-- A scalar in a buffer of a given size. -/
def YamlNode.text (size : Nat) : YamlNode → Option CString
  | .scalar value => some ((cstr value).take (size - 1))
  | _ => none

/-- The pairs of a mapping. -/
def YamlNode.pairs : YamlNode → Option (List (YamlNode × YamlNode))
  | .mapping pairs => some pairs
  | _ => none

/-- The items of a sequence. -/
def YamlNode.items : YamlNode → Option (List YamlNode)
  | .sequence items => some items
  | _ => none

/-! ## Mappings that are ended -/

/-- How many mappings an event ends. -/
def YamlEvent.ends : YamlEvent → Int
  | .mappingStart => -1
  | .mappingEnd => 1
  | _ => 0

/--
Up to the end of the stream, at least so many more mappings are ended than
started.
-/
def Closes : Int → List YamlEvent → Prop
  | _, [] => False
  | count, event :: rest =>
      if event = .streamEnd then count ≤ 0 else Closes (count - event.ends) rest

theorem closes_cons
    {event : YamlEvent}
    (goesOn : event ≠ .streamEnd)
    {count : Int}
    {rest : List YamlEvent} :
    Closes count (event :: rest) ↔ Closes (count - event.ends) rest := by
  rw [Closes, if_neg goesOn]

theorem Closes.mono
    {count other : Int}
    (fewer : other ≤ count)
    {events : List YamlEvent}
    (closes : Closes count events) :
    Closes other events := by
  induction events generalizing count other with
  | nil =>
      exact closes
  | cons event rest inductionHypothesis =>
      rw [Closes] at closes ⊢
      split
      · rename_i isEnd
        rw [if_pos isEnd] at closes
        exact Int.le_trans fewer closes
      · rename_i goesOn
        rw [if_neg goesOn] at closes
        exact inductionHypothesis (Int.sub_le_sub_right fewer _) closes

/-- Only a stream that ends closes anything. -/
theorem Closes.streamEnd_mem
    {count : Int}
    {events : List YamlEvent}
    (closes : Closes count events) :
    YamlEvent.streamEnd ∈ events := by
  induction events generalizing count with
  | nil =>
      exact closes.elim
  | cons event rest inductionHypothesis =>
      rw [Closes] at closes
      split at closes
      · rename_i isEnd
        rw [isEnd]
        exact List.mem_cons_self
      · exact List.mem_cons_of_mem event (inductionHypothesis closes)

mutual

/-- A node ends the mappings that it starts. -/
theorem closes_node
    (node : YamlNode)
    (count : Int)
    (rest : List YamlEvent) :
    Closes count (node.events ++ rest) ↔ Closes count rest := by
  cases node with
  | aliased =>
      simp [YamlNode.events, Closes, YamlEvent.ends]
  | scalar value =>
      simp [YamlNode.events, Closes, YamlEvent.ends]
  | sequence items =>
      simp [YamlNode.events, Closes, YamlEvent.ends, closes_items items]
  | mapping pairs =>
      simp [YamlNode.events, Closes, YamlEvent.ends, closes_pairs pairs]

theorem closes_items
    (items : List YamlNode)
    (count : Int)
    (rest : List YamlEvent) :
    Closes count (itemsEvents items ++ rest) ↔ Closes count rest := by
  cases items with
  | nil =>
      exact Iff.rfl
  | cons item items =>
      rw [itemsEvents, List.append_assoc, closes_node item,
        closes_items items]

theorem closes_pairs
    (pairs : List (YamlNode × YamlNode))
    (count : Int)
    (rest : List YamlEvent) :
    Closes count (pairsEvents pairs ++ rest) ↔ Closes count rest := by
  cases pairs with
  | nil =>
      exact Iff.rfl
  | cons pair pairs =>
      obtain ⟨key, node⟩ := pair
      rw [pairsEvents, List.append_assoc, List.append_assoc, closes_node key,
        closes_node node, closes_pairs pairs]

end

mutual

/-- A stream does not end inside a node. -/
theorem streamEnd_notMem_node
    (node : YamlNode) :
    YamlEvent.streamEnd ∉ node.events := by
  cases node with
  | aliased =>
      simp [YamlNode.events]
  | scalar value =>
      simp [YamlNode.events]
  | sequence items =>
      simp [YamlNode.events, streamEnd_notMem_items items]
  | mapping pairs =>
      simp [YamlNode.events, streamEnd_notMem_pairs pairs]

theorem streamEnd_notMem_items
    (items : List YamlNode) :
    YamlEvent.streamEnd ∉ itemsEvents items := by
  cases items with
  | nil =>
      exact List.not_mem_nil
  | cons item items =>
      simp [itemsEvents, streamEnd_notMem_node item,
        streamEnd_notMem_items items]

theorem streamEnd_notMem_pairs
    (pairs : List (YamlNode × YamlNode)) :
    YamlEvent.streamEnd ∉ pairsEvents pairs := by
  cases pairs with
  | nil =>
      exact List.not_mem_nil
  | cons pair pairs =>
      obtain ⟨key, node⟩ := pair
      simp [pairsEvents, streamEnd_notMem_node key, streamEnd_notMem_node node,
        streamEnd_notMem_pairs pairs]

end

/-- A stream ends with its last event only. -/
theorem documentEvents_shape
    (documents : List YamlNode) :
    ∃ front,
      documentEvents documents = front ++ [.streamEnd] ∧
        YamlEvent.streamEnd ∉ front := by
  induction documents with
  | nil =>
      exact ⟨[], rfl, List.not_mem_nil⟩
  | cons root documents inductionHypothesis =>
      obtain ⟨front, shape, notMem⟩ := inductionHypothesis
      refine ⟨.documentStart :: (root.events ++ .documentEnd :: front), ?_, ?_⟩
      · simp [documentEvents, shape]
      · simp [notMem, streamEnd_notMem_node root]

/-- A part of a stream that ends is the whole stream. -/
theorem take_streamEvents
    {documents : List YamlNode}
    {delivered : Nat}
    (ends : YamlEvent.streamEnd ∈ (streamEvents documents).take delivered) :
    (streamEvents documents).take delivered = streamEvents documents := by
  obtain ⟨front, shape, notMem⟩ := documentEvents_shape documents
  have whole :
      streamEvents documents = (.streamStart :: front) ++ [.streamEnd] := by
    rw [streamEvents, shape]
    rfl
  rcases Nat.lt_or_ge delivered (streamEvents documents).length with
    fewer | all
  · rw [whole, List.length_append, List.length_singleton] at fewer
    rw [whole, List.take_append_of_le_length (Nat.le_of_lt_succ fewer)] at ends
    have isMember := List.mem_of_mem_take ends
    exact absurd isMember (by simp [notMem])
  · exact List.take_of_length_le all

end Cdba

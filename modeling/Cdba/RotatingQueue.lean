import Mathlib.Data.List.Nodup

/-!
# Passes over a rotating queue

A pass takes the item at the front out of a queue and calls its function, which
may put the item back at the end.  The item behind the one that is called is
looked up before the call, so that the pass is over once it has called an item
that was alone in the queue.  This module tells how long such a pass can get.
-/

namespace RotatingQueue

variable {α κ : Type}

/--
The calls of a pass over a queue.  `again` is what a call puts back, and a call
of an item that stops does not return.
-/
inductive Pass
    (again : α → Option α)
    (stops : α → Prop) :
    List α → List α → Prop where
  | empty : Pass again stops [] []
  | alone
      {item : α}
      (goes : ¬ stops item) :
      Pass again stops [item] [item]
  | more
      {first second : α}
      {rest calls : List α}
      (goes : ¬ stops first)
      (later :
        Pass again stops (second :: rest ++ (again first).toList) calls) :
      Pass again stops (first :: second :: rest) (first :: calls)

section Pass

variable {again : α → Option α} {stops : α → Prop}

theorem pass_alone
    {item : α}
    {calls : List α} :
    Pass again stops [item] calls ↔ ¬ stops item ∧ calls = [item] := by
  constructor
  · intro pass
    cases pass with
    | alone goes => exact ⟨goes, rfl⟩
  · rintro ⟨goes, rfl⟩
    exact .alone goes

theorem pass_cons
    {item : α}
    {queue calls : List α}
    (behind : queue ≠ []) :
    Pass again stops (item :: queue) calls ↔
      ¬ stops item ∧
        ∃ later,
          calls = item :: later ∧
            Pass again stops (queue ++ (again item).toList) later := by
  constructor
  · intro pass
    cases pass with
    | alone => exact absurd rfl behind
    | more goes later => exact ⟨goes, _, rfl, later⟩
  · rintro ⟨goes, later, rfl, pass⟩
    cases queue with
    | nil => exact absurd rfl behind
    | cons second rest => exact .more goes pass

/-- Items with others behind them are all called, before what they put back. -/
theorem pass_append
    {front behind calls : List α}
    (others : behind ≠ []) :
    Pass again stops (front ++ behind) calls ↔
      (∀ item ∈ front, ¬ stops item) ∧
        ∃ later,
          calls = front ++ later ∧
            Pass again stops (behind ++ front.filterMap again) later := by
  induction front generalizing behind calls with
  | nil =>
      simp
  | cons item front inductionHypothesis =>
      have more : behind ++ (again item).toList ≠ [] := by
        simp [others]
      have rotated : (behind ++ (again item).toList) ++
          front.filterMap again =
            behind ++ (item :: front).filterMap again := by
        rw [List.append_assoc, List.filterMap_cons]
        cases again item with
        | none => rfl
        | some next => rfl
      rw [List.cons_append, pass_cons (by simp [others]), List.append_assoc,
        List.forall_mem_cons, and_assoc]
      refine and_congr_right fun _ => ?_
      constructor
      · rintro ⟨later, rfl, pass⟩
        obtain ⟨go, last, shape, rest⟩ := (inductionHypothesis more).mp pass
        exact ⟨go, last, by rw [shape, List.cons_append], rotated ▸ rest⟩
      · rintro ⟨go, later, rfl, pass⟩
        exact ⟨front ++ later, rfl,
          (inductionHypothesis more).mpr ⟨go, later, rfl, rotated ▸ pass⟩⟩

/--
A pass calls every item of the queue once.  Unless none but the last of them
has been put back by then, it goes on with those that have.
-/
theorem pass_iff
    {queue calls : List α}
    (nonempty : queue ≠ []) :
    Pass again stops queue calls ↔
      (∀ item ∈ queue, ¬ stops item) ∧
        if queue.dropLast.filterMap again = [] then
          calls = queue
        else
          ∃ later,
            calls = queue ++ later ∧
              Pass again stops (queue.filterMap again) later := by
  obtain ⟨front, last, rfl⟩ :
      ∃ front last, queue = front ++ [last] :=
    ⟨_, _, (List.dropLast_append_getLast nonempty).symm⟩
  rw [List.dropLast_concat, pass_append (List.cons_ne_nil _ _),
    List.forall_mem_append, and_assoc]
  refine and_congr_right fun _ => ?_
  by_cases none_back : front.filterMap again = []
  · simp only [none_back, ↓reduceIte, List.append_nil, pass_alone,
      List.mem_singleton, forall_eq]
    constructor
    · rintro ⟨later, rfl, goes, rfl⟩
      exact ⟨goes, rfl⟩
    · rintro ⟨goes, rfl⟩
      exact ⟨[last], rfl, goes, rfl⟩
  · have rotated : front.filterMap again ++ (again last).toList =
        (front ++ [last]).filterMap again := by
      rw [List.filterMap_append]
      cases again_last : again last <;> simp [again_last]
    simp only [none_back, ↓reduceIte, List.singleton_append,
      pass_cons none_back, List.mem_singleton, forall_eq, rotated]
    constructor
    · rintro ⟨_, rfl, goes, later, rfl, pass⟩
      exact ⟨goes, later, List.append_cons _ _ _, pass⟩
    · rintro ⟨goes, later, rfl, pass⟩
      exact ⟨last :: later, (List.append_cons _ _ _).symm, goes, later, rfl,
        pass⟩

theorem Pass.prefix_calls
    {queue calls : List α}
    (pass : Pass again stops queue calls) :
    queue <+: calls := by
  by_cases nonempty : queue = []
  · rw [nonempty]
    exact List.nil_prefix
  · obtain ⟨_, either⟩ := (pass_iff nonempty).mp pass
    split at either
    · exact either ▸ List.prefix_rfl
    · obtain ⟨later, rfl, _⟩ := either
      exact List.prefix_append _ _

/-- A pass that is over has called no item that stops. -/
theorem Pass.goes
    {queue calls : List α}
    (pass : Pass again stops queue calls) :
    ∀ item ∈ queue, ¬ stops item := by
  by_cases nonempty : queue = []
  · rw [nonempty]
    exact fun _ member => absurd member List.not_mem_nil
  · exact ((pass_iff nonempty).mp pass).1

/-- Every call is the first one of its item, or its item was put back. -/
theorem Pass.mem_calls
    {key : α → κ}
    (sameKey : ∀ item next, again item = some next → key next = key item)
    {queue calls : List α}
    (pass : Pass again stops queue calls) :
    ∀ call ∈ calls, ∃ item ∈ queue,
      key item = key call ∧ (call = item ∨ (again item).isSome) := by
  induction pass with
  | empty => exact fun _ member => absurd member List.not_mem_nil
  | @alone item goes =>
      intro call member
      exact ⟨item, List.mem_singleton_self _,
        congrArg key (List.mem_singleton.mp member).symm,
        .inl (List.mem_singleton.mp member)⟩
  | @more first second rest calls goes later inductionHypothesis =>
      intro call member
      rcases List.mem_cons.mp member with rfl | behind
      · exact ⟨call, List.mem_cons_self, rfl, .inl rfl⟩
      · obtain ⟨item, queued, sameCall, either⟩ :=
          inductionHypothesis call behind
        rcases List.mem_append.mp queued with old | back
        · exact ⟨item, List.mem_cons_of_mem _ old, sameCall, either⟩
        · have isBack : again first = some item := by
            simpa using back
          refine ⟨first, List.mem_cons_self, ?_, .inr ?_⟩
          · rw [← sameKey first item isBack, sameCall]
          · rw [isBack]
            rfl

/-- The number of items of a queue that are put back in some calls. -/
def putBack
    [DecidableEq κ]
    (again : α → Option α)
    (key : α → κ)
    (queue calls : List α) :
    Nat :=
  queue.countP fun item =>
    calls.any fun call => key call = key item && (again call).isSome

/-- It is the number of items that their first call puts back. -/
theorem Pass.putBack_eq
    [DecidableEq κ]
    {key : α → κ}
    (sameKey : ∀ item next, again item = some next → key next = key item)
    {queue calls : List α}
    (distinct : (queue.map key).Nodup)
    (pass : Pass again stops queue calls) :
    putBack again key queue calls = (queue.filterMap again).length := by
  rw [List.length_filterMap_eq_countP, putBack]
  refine List.countP_congr fun item queued => ?_
  rw [List.any_eq_true]
  constructor
  · rintro ⟨call, member, both⟩
    simp only [Bool.and_eq_true, decide_eq_true_eq] at both
    obtain ⟨other, otherQueued, sameCall, either⟩ :=
      pass.mem_calls sameKey call member
    have same : other = item :=
      List.inj_on_of_nodup_map distinct otherQueued queued
        (sameCall.trans both.1)
    rcases either with rfl | back
    · rw [← same]
      exact both.2
    · rw [← same]
      exact back
  · intro back
    refine ⟨item, pass.prefix_calls.subset queued, ?_⟩
    rw [decide_eq_true rfl, Bool.true_and]
    exact back

/-! ## How long a pass gets -/

/-- What is put back in front of the last item is put back. -/
theorem filterMap_ne_nil_of_dropLast
    {queue : List α}
    (someBack : queue.dropLast.filterMap again ≠ []) :
    queue.filterMap again ≠ [] := by
  intro noneBack
  have sublist := (List.dropLast_sublist queue).filterMap again
  rw [noneBack] at sublist
  exact someBack (List.sublist_nil.mp sublist)

/--
A pass makes at most one call for every item, and one more for every item that
is put back, exactly if no call fails and no item is put back twice while there
is another one that is put back behind it.
-/
theorem inTime_iff
    [DecidableEq κ]
    {key : α → κ}
    (sameKey : ∀ item next, again item = some next → key next = key item)
    (stable : ∀ item next, again item = some next → ¬ stops next)
    {queue : List α}
    (distinct : (queue.map key).Nodup) :
    (∃ calls, Pass again stops queue calls ∧
        calls.length ≤ queue.length + putBack again key queue calls) ↔
      (∀ item ∈ queue, ¬ stops item) ∧
        (queue.filterMap again).dropLast.filterMap again = [] := by
  by_cases nonempty : queue = []
  · subst nonempty
    exact iff_of_true ⟨[], .empty, Nat.zero_le _⟩ ⟨by simp, rfl⟩
  have goBack : ∀ item ∈ queue.filterMap again, ¬ stops item := by
    intro item member
    obtain ⟨first, _, back⟩ := List.mem_filterMap.mp member
    exact stable first item back
  have lastBack (noneBack : queue.dropLast.filterMap again = []) :
      (queue.filterMap again).dropLast.filterMap again = [] := by
    rw [← List.dropLast_append_getLast nonempty, List.filterMap_append,
      noneBack, List.nil_append]
    cases again_last : again (queue.getLast nonempty) <;> simp [again_last]
  constructor
  · rintro ⟨calls, pass, few⟩
    rw [pass.putBack_eq sameKey distinct] at few
    obtain ⟨go, either⟩ := (pass_iff nonempty).mp pass
    refine ⟨go, ?_⟩
    split at either
    · rename_i noneBack
      exact lastBack noneBack
    · rename_i someBack
      obtain ⟨later, shape, secondRound⟩ := either
      by_contra twice
      have rest := (pass_iff
        (filterMap_ne_nil_of_dropLast someBack)).mp secondRound
      rw [if_neg twice] at rest
      obtain ⟨_, last, laterShape, thirdRound⟩ := rest
      have called := thirdRound.prefix_calls.length_le
      have someTwice :=
        List.length_pos_iff.mpr (filterMap_ne_nil_of_dropLast twice)
      rw [shape, laterShape, List.length_append, List.length_append] at few
      omega
  · rintro ⟨go, once⟩
    by_cases noneBack : queue.dropLast.filterMap again = []
    · refine ⟨queue, (pass_iff nonempty).mpr ⟨go, ?_⟩, Nat.le_add_right _ _⟩
      rw [if_pos noneBack]
    · have secondRound :
          Pass again stops (queue.filterMap again)
            (queue.filterMap again) :=
        (pass_iff (filterMap_ne_nil_of_dropLast noneBack)).mpr
          ⟨goBack, by rw [if_pos once]⟩
      have pass : Pass again stops queue
          (queue ++ queue.filterMap again) := by
        refine (pass_iff nonempty).mpr ⟨go, ?_⟩
        rw [if_neg noneBack]
        exact ⟨_, rfl, secondRound⟩
      refine ⟨_, pass, ?_⟩
      have putBack := pass.putBack_eq sameKey distinct
      exact Nat.le_of_eq (by rw [putBack, List.length_append])

/-- Two items of a queue, in their order. -/
def InOrder (queue : List α) (first second : α) : Prop :=
  ∃ earlier between later,
    queue = earlier ++ first :: between ++ second :: later

theorem inOrder_cons
    (item : α)
    (queue : List α)
    (first second : α) :
    InOrder (item :: queue) first second ↔
      (first = item ∧ second ∈ queue) ∨ InOrder queue first second := by
  constructor
  · rintro ⟨earlier, between, later, shape⟩
    cases earlier with
    | nil =>
        obtain ⟨rfl, rfl⟩ := List.cons.inj shape
        exact .inl ⟨rfl, List.mem_append_right _ List.mem_cons_self⟩
    | cons head earlier =>
        obtain ⟨rfl, rest⟩ := List.cons.inj shape
        exact .inr ⟨earlier, between, later, rest⟩
  · rintro (⟨rfl, member⟩ | ⟨earlier, between, later, rfl⟩)
    · obtain ⟨between, later, rfl⟩ := List.append_of_mem member
      exact ⟨[], between, later, rfl⟩
    · exact ⟨item :: earlier, between, later, rfl⟩

theorem inOrder_map
    {β : Type}
    (view : β → α)
    (queue : List β)
    (first second : α) :
    InOrder (queue.map view) first second ↔
      ∃ before behind,
        InOrder queue before behind ∧
          view before = first ∧ view behind = second := by
  induction queue with
  | nil =>
      refine iff_of_false ?_ ?_
      · rintro ⟨earlier, between, later, shape⟩
        simp at shape
      · rintro ⟨_, _, ⟨earlier, between, later, shape⟩, _⟩
        simp at shape
  | cons item queue inductionHypothesis =>
      rw [List.map_cons, inOrder_cons, inductionHypothesis]
      constructor
      · rintro (⟨rfl, member⟩ | ⟨before, behind, order, both⟩)
        · obtain ⟨behind, queued, rfl⟩ := List.mem_map.mp member
          exact ⟨item, behind, (inOrder_cons _ _ _ _).mpr (.inl ⟨rfl, queued⟩),
            rfl, rfl⟩
        · exact ⟨before, behind, (inOrder_cons _ _ _ _).mpr (.inr order), both⟩
      · rintro ⟨before, behind, order, rfl, rfl⟩
        rcases (inOrder_cons _ _ _ _).mp order with ⟨rfl, queued⟩ | order
        · exact .inl ⟨rfl, List.mem_map_of_mem queued⟩
        · exact .inr ⟨before, behind, order, rfl, rfl⟩

/-- No item is put back twice in front of another one that is put back. -/
theorem twice_eq_nil_iff
    (queue : List α) :
    (queue.filterMap again).dropLast.filterMap again = [] ↔
      ∀ first second, InOrder queue first second →
        (again second).isSome → (again first).bind again = none := by
  induction queue with
  | nil =>
      refine iff_of_true rfl ?_
      rintro first second ⟨earlier, between, later, shape⟩
      simp at shape
  | cons item queue inductionHypothesis =>
      simp only [inOrder_cons, or_imp, forall_and, and_imp,
        ← inductionHypothesis]
      have here :
          (∀ first second, first = item → second ∈ queue →
            (again second).isSome → (again first).bind again = none) ↔
          (queue.filterMap again ≠ [] → (again item).bind again = none) := by
        constructor
        · intro all someBack
          obtain ⟨next, member⟩ := List.exists_mem_of_ne_nil _ someBack
          obtain ⟨second, queued, back⟩ := List.mem_filterMap.mp member
          exact all item second rfl queued (by rw [back]; rfl)
        · rintro once first second rfl queued back
          refine once fun noneBack => ?_
          rw [List.filterMap_eq_nil_iff.mp noneBack second queued] at back
          contradiction
      rw [here, List.filterMap_cons]
      cases back : again item with
      | none => simp
      | some next =>
          cases behind : queue.filterMap again with
          | nil => simp
          | cons second rest =>
              rw [List.dropLast_cons_cons, List.filterMap_cons]
              cases again_next : again next <;> simp [again_next]

end Pass

end RotatingQueue

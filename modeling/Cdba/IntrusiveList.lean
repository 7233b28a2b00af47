import Cdba.Program

/-!
# Circular doubly linked lists in memory

Lists whose links are members of the elements: a head and the queued nodes
form a ring through their `next` members, and `prev` leads the other way.  The
operations are pointer assignments and mean what they should only while the
memory represents a list; adding a node that is already linked does not.
-/

/-- The two members of every `struct list_head` in memory. -/
structure Links (Node : Type) where
  prev : Node → Node
  next : Node → Node

namespace Links

variable {Node : Type}

/-! ## Operations -/

section Operations

variable [DecidableEq Node]

/-- `node->next = target` -/
def setNext (links : Links Node) (node target : Node) : Links Node where
  prev := links.prev
  next := fun query => if query = node then target else links.next query

/-- `node->prev = target` -/
def setPrev (links : Links Node) (node target : Node) : Links Node where
  prev := fun query => if query = node then target else links.prev query
  next := links.next

/-- `LIST_INIT` for every node: each is the head of an empty list. -/
def init : Links Node where
  prev := id
  next := id

/-- `list_empty` -/
def listEmpty (links : Links Node) (list : Node) : Bool :=
  links.next list = list

/-- `list_add`: the new item goes in front of the head, at the end. -/
def listAdd (links : Links Node) (list item : Node) : Links Node :=
  let prev := links.prev list
  (((links.setNext item list).setPrev item prev).setPrev list item).setNext
    prev item

/-- `list_del` -/
def listDel (links : Links Node) (item : Node) : Links Node :=
  let links := links.setNext (links.prev item) (links.next item)
  links.setPrev (links.next item) (links.prev item)

@[simp] theorem setNext_next
    (links : Links Node)
    (node target query : Node) :
    (links.setNext node target).next query =
      if query = node then target else links.next query :=
  rfl

@[simp] theorem setNext_prev
    (links : Links Node)
    (node target : Node) :
    (links.setNext node target).prev = links.prev :=
  rfl

@[simp] theorem setPrev_prev
    (links : Links Node)
    (node target query : Node) :
    (links.setPrev node target).prev query =
      if query = node then target else links.prev query :=
  rfl

@[simp] theorem setPrev_next
    (links : Links Node)
    (node target : Node) :
    (links.setPrev node target).next = links.next :=
  rfl

/-- The only `next` members that `list_add` writes. -/
theorem listAdd_next
    (links : Links Node)
    (list item query : Node) :
    (links.listAdd list item).next query =
      if query = links.prev list then
        item
      else if query = item then
        list
      else
        links.next query :=
  rfl

/-- The only `prev` members that `list_add` writes. -/
theorem listAdd_prev
    (links : Links Node)
    (list item query : Node) :
    (links.listAdd list item).prev query =
      if query = list then
        item
      else if query = item then
        links.prev list
      else
        links.prev query :=
  rfl

/-- The only `next` member that `list_del` writes. -/
theorem listDel_next
    (links : Links Node)
    (item query : Node) :
    (links.listDel item).next query =
      if query = links.prev item then
        links.next item
      else
        links.next query :=
  rfl

/-- The only `prev` member that `list_del` writes. -/
theorem listDel_prev
    (links : Links Node)
    (item query : Node) :
    (links.listDel item).prev query =
      if query = links.next item then
        links.prev item
      else
        links.prev query := by
  have same :
      (links.setNext (links.prev item) (links.next item)).next item =
        links.next item := by
    rw [setNext_next]
    split <;> rfl
  simp only [listDel, setPrev_prev, same, setNext_prev]

end Operations

/-! ## Rings -/

/-- From `first` through `items` to `last`, in both directions. -/
def Chain (links : Links Node) : Node → List Node → Node → Prop
  | first, [], last => links.next first = last ∧ links.prev last = first
  | first, item :: rest, last =>
      links.next first = item ∧
        links.prev item = first ∧
        links.Chain item rest last

/-- The memory holds a list: every queued node once, and then the head again. -/
structure Represents
    (links : Links Node)
    (head : Node)
    (items : List Node) :
    Prop where
  nodup : (head :: items).Nodup
  chain : links.Chain head items head

variable {links links' : Links Node}

theorem chain_append
    {first item last : Node}
    {before after : List Node} :
    links.Chain first (before ++ item :: after) last ↔
      links.Chain first before item ∧ links.Chain item after last := by
  induction before generalizing first with
  | nil =>
      simp only [List.nil_append, Chain, and_assoc]
  | cons head rest inductionHypothesis =>
      simp only [List.cons_append, Chain, inductionHypothesis, and_assoc]

theorem Chain.prev_last
    {first last : Node}
    {items : List Node}
    (chain : links.Chain first items last) :
    links.prev last = items.getLastD first := by
  induction items generalizing first with
  | nil =>
      exact chain.2
  | cons item rest inductionHypothesis =>
      rw [inductionHypothesis chain.2.2, List.getLastD_cons]

theorem Chain.next_first
    {first last : Node}
    {items : List Node}
    (chain : links.Chain first items last) :
    links.next first = items.headD last := by
  cases items with
  | nil => exact chain.1
  | cons item rest => exact chain.1

private theorem getLastD_mem
    {α : Type}
    (items : List α)
    (first : α) :
    items.getLastD first ∈ first :: items := by
  induction items generalizing first with
  | nil =>
      simp
  | cons item rest inductionHypothesis =>
      rw [List.getLastD_cons]
      exact List.mem_cons_of_mem _ (inductionHypothesis item)

/-- The end of a chain can be moved without touching what leads there. -/
theorem Chain.redirect
    {first last target : Node}
    {items : List Node}
    (chain : links.Chain first items last)
    (nodup : (first :: items).Nodup)
    (sameNext :
      ∀ node,
        node ∈ first :: items →
        node ≠ items.getLastD first →
        links'.next node = links.next node)
    (samePrev :
      ∀ node, node ∈ items → links'.prev node = links.prev node)
    (lastNext : links'.next (items.getLastD first) = target)
    (targetPrev : links'.prev target = items.getLastD first) :
    links'.Chain first items target := by
  induction items generalizing first with
  | nil =>
      exact ⟨lastNext, targetPrev⟩
  | cons item rest inductionHypothesis =>
      obtain ⟨next, prev, chain⟩ := chain
      have fresh := List.nodup_cons.mp nodup
      rw [List.getLastD_cons] at sameNext lastNext targetPrev
      have isLast := getLastD_mem rest item
      refine ⟨?_, ?_, ?_⟩
      · rw [sameNext first (by simp)
          (fun same => fresh.1 (same ▸ isLast)), next]
      · rw [samePrev item (by simp), prev]
      · exact inductionHypothesis chain fresh.2
          (fun node member => sameNext node (by simp [member]))
          (fun node member => samePrev node (by simp [member]))
          lastNext targetPrev

/-- A chain is not affected by writes to other members. -/
theorem Chain.congr
    {first last : Node}
    {items : List Node}
    (chain : links.Chain first items last)
    (sameNext :
      ∀ node, node ∈ first :: items → links'.next node = links.next node)
    (samePrev :
      ∀ node, node ∈ items ++ [last] →
        links'.prev node = links.prev node) :
    links'.Chain first items last := by
  induction items generalizing first with
  | nil =>
      rw [Chain, sameNext first (by simp), samePrev last (by simp)]
      exact chain
  | cons item rest inductionHypothesis =>
      obtain ⟨next, prev, chain⟩ := chain
      refine ⟨?_, ?_, ?_⟩
      · rw [sameNext first (by simp), next]
      · rw [samePrev item (by simp), prev]
      · exact inductionHypothesis chain
          (fun node member => sameNext node (by simp [member]))
          (fun node member => samePrev node (by
            simp only [List.cons_append, List.mem_cons]
            exact .inr member))

/-! ## What the operations mean -/

/-- `LIST_INIT` makes an empty list. -/
theorem represents_init
    (head : Node) :
    (init : Links Node).Represents head [] where
  nodup := by simp
  chain := ⟨rfl, rfl⟩

/-- The head is not queued. -/
theorem Represents.ne_head
    {head item : Node}
    {items : List Node}
    (represents : links.Represents head items)
    (member : item ∈ items) :
    item ≠ head := by
  rintro rfl
  exact (List.nodup_cons.mp represents.nodup).1 member

/-- No node is queued twice. -/
theorem Represents.notMem_rest
    {head item : Node}
    {rest : List Node}
    (represents : links.Represents head (item :: rest)) :
    item ∉ rest :=
  (List.nodup_cons.mp (List.nodup_cons.mp represents.nodup).2).1

theorem Represents.listEmpty_iff
    [DecidableEq Node]
    {head : Node}
    {items : List Node}
    (represents : links.Represents head items) :
    links.listEmpty head = true ↔ items = [] := by
  rw [listEmpty, decide_eq_true_eq, represents.chain.next_first]
  cases items with
  | nil =>
      simp
  | cons item rest =>
      simp only [List.headD_cons, reduceCtorEq, iff_false]
      exact represents.ne_head List.mem_cons_self

/-- The node behind a queued one, or the head at the end. -/
theorem Represents.next_eq
    {head item : Node}
    (before : List Node)
    {after : List Node}
    (represents : links.Represents head (before ++ item :: after)) :
    links.next item = after.headD head :=
  (chain_append.mp represents.chain).2.next_first

/-- In a well-formed list no queued node is its own successor. -/
theorem Represents.next_ne_self
    {head item : Node}
    {items : List Node}
    (represents : links.Represents head items)
    (member : item ∈ items) :
    links.next item ≠ item := by
  obtain ⟨before, after, rfl⟩ := List.append_of_mem member
  obtain ⟨headFresh, nodup⟩ := List.nodup_cons.mp represents.nodup
  rw [represents.next_eq before]
  cases after with
  | nil =>
      rintro rfl
      exact headFresh member
  | cons second rest =>
      rintro rfl
      exact (List.nodup_cons.mp (List.nodup_append.mp nodup).2.1).1
        (by simp)

/-- A node that is not queued goes to the end of the list. -/
theorem Represents.listAdd
    [DecidableEq Node]
    {head item : Node}
    {items : List Node}
    (represents : links.Represents head items)
    (fresh : item ∉ head :: items) :
    (links.listAdd head item).Represents head (items ++ [item]) := by
  have notHead : item ≠ head := fun same => fresh (by simp [same])
  have notQueued : ∀ node, node ∈ head :: items → node ≠ item :=
    fun node member same => fresh (same ▸ member)
  have headFresh := List.nodup_cons.mp represents.nodup
  have last := represents.chain.prev_last
  have isLast := getLastD_mem items head
  refine ⟨?_, chain_append.mpr ⟨?_, ?_⟩⟩
  · rw [← List.cons_append]
    exact List.nodup_append.mpr
      ⟨represents.nodup, by simp, fun node member other isItem =>
        notQueued node member ∘
          (fun same => same.trans (List.mem_singleton.mp isItem))⟩
  · refine represents.chain.redirect represents.nodup ?_ ?_ ?_ ?_
    · intro node member notLast
      rw [listAdd_next, last, if_neg notLast,
        if_neg (notQueued node member)]
    · intro node member
      have notHead : node ≠ head := fun same =>
        headFresh.1 (same ▸ member)
      rw [listAdd_prev, if_neg notHead,
        if_neg (notQueued node (by simp [member]))]
    · rw [listAdd_next, last, if_pos rfl]
    · rw [listAdd_prev, if_neg notHead, if_pos rfl, last]
  · refine ⟨?_, ?_⟩
    · rw [listAdd_next, last, if_neg (notQueued _ isLast).symm,
        if_pos rfl]
    · rw [listAdd_prev, if_pos rfl]

/-- Removing a queued node leaves the others in their order. -/
theorem Represents.listDel
    [DecidableEq Node]
    {head item : Node}
    (before : List Node)
    {after : List Node}
    (represents : links.Represents head (before ++ item :: after)) :
    (links.listDel item).Represents head (before ++ after) := by
  obtain ⟨toItem, fromItem⟩ := chain_append.mp represents.chain
  have prev := toItem.prev_last
  have next := fromItem.next_first
  have isPrev := getLastD_mem before head
  obtain ⟨nodupBefore, nodupAfter, disjoint⟩ :=
    List.nodup_append.mp
      (show ((head :: before) ++ item :: after).Nodup from
        represents.nodup)
  have toNext :
      ∀ target,
        links.next item = target →
        (∀ node, node ∈ before → node ≠ target) →
        (links.listDel item).Chain head before target := by
    intro target isNext other
    refine toItem.redirect nodupBefore ?_ ?_ ?_ ?_
    · intro node _ notLast
      rw [listDel_next, prev, if_neg notLast]
    · intro node member
      rw [listDel_prev, isNext, if_neg (other node member)]
    · rw [listDel_next, prev, if_pos rfl, isNext]
    · rw [listDel_prev, isNext, if_pos rfl, prev]
  have nodup : (head :: (before ++ after)).Nodup :=
    (List.nodup_append.mpr
      ⟨nodupBefore, (List.nodup_cons.mp nodupAfter).2,
        fun node member other later =>
          disjoint node member other (List.mem_cons_of_mem _ later)⟩)
  cases after with
  | nil =>
      rw [List.append_nil] at nodup ⊢
      refine ⟨nodup, toNext head next ?_⟩
      intro node member same
      exact (List.nodup_cons.mp nodupBefore).1 (same ▸ member)
  | cons second rest =>
      refine ⟨nodup, chain_append.mpr ⟨toNext second next ?_, ?_⟩⟩
      · intro node member
        exact disjoint node (by simp [member]) second (by simp)
      · refine fromItem.2.2.congr ?_ ?_
        · intro node member
          have notPrev : node ≠ before.getLastD head := fun same =>
            disjoint _ isPrev node (by simp [member]) same.symm
          rw [listDel_next, prev, if_neg notPrev]
        · intro node member
          have notSecond : node ≠ second := by
            rcases List.mem_append.mp member with later | isHead
            · rintro rfl
              exact (List.nodup_cons.mp
                (List.nodup_cons.mp nodupAfter).2).1 later
            · rw [List.mem_singleton.mp isHead]
              exact disjoint head (by simp) second (by simp)
          rw [listDel_prev, next, List.headD_cons, if_neg notSecond]

/-! ## Passes that remove while they go -/

section ForEach

open Program

variable {ε σ : Type} [DecidableEq Node]

/--
`list_for_each_entry_safe`: the successor of a node is looked up before the
node is visited, the successor of that one after the visit.
-/
def forEachEntrySafe
    (links : σ → Links Node)
    (head : Node)
    (visit : Node → EStateM ε σ Unit)
    (diverges : ε) :
    Nat → Node → Node → EStateM ε σ Unit
  | 0, _, _ => stop diverges
  | fuel + 1, item, next =>
      if item = head then
        pure ()
      else do
        visit item
        let following ← read fun state => (links state).next next
        forEachEntrySafe links head visit diverges fuel next following

variable {links : σ → Links Node} {head : Node}
variable {visit : Node → EStateM ε σ Unit} {diverges : ε}

/-- A pass relates states as the visits do. -/
theorem forEachEntrySafe_relates
    {relation : σ → σ → Prop}
    {mayStop : ε → Prop}
    [Composes relation]
    (visits : ∀ node, Relates relation mayStop (visit node))
    (mayDiverge : mayStop diverges)
    (fuel : Nat)
    (item next : Node) :
    Relates relation mayStop
      (forEachEntrySafe links head visit diverges fuel item next) := by
  induction fuel generalizing item next with
  | zero =>
      exact .stop mayDiverge
  | succ fuel inductionHypothesis =>
      exact .ite (.pure _)
        (.bind (visits item) fun _ =>
          .bind (.read _) fun _ => inductionHypothesis _ _)

/-- A pass over whatever the memory holds keeps what every visit keeps. -/
theorem forEachEntrySafe_invariant
    {invariant : σ → Prop}
    {stopped : ε → σ → Prop}
    (visits : ∀ node, Keeps invariant stopped (visit node))
    (mayDiverge : ∀ state, invariant state → stopped diverges state)
    (fuel : Nat)
    (item next : Node) :
    Keeps invariant stopped
      (forEachEntrySafe links head visit diverges fuel item next) := by
  induction fuel generalizing item next with
  | zero =>
      exact mayDiverge
  | succ fuel inductionHypothesis =>
      exact .ite (.pure _)
        (.bind (visits item) fun _ =>
          .bind (.read _) fun _ => inductionHypothesis _ _)

/--
A pass over a well-formed list.  Visiting the front node removes it, and may
add it again at the end; each visit lowers the cost of the list.  With fuel for
the cost the pass ends, and it has visited a nonempty list at least once.
-/
theorem forEachEntrySafe_keeps
    {queued : List Node → σ → Prop}
    {cost : List Node → σ → Nat}
    {stopped : ε → σ → Prop}
    (represents :
      ∀ items state,
        queued items state → (links state).Represents head items)
    (visits :
      ∀ item rest state,
        queued (item :: rest) state →
        KeepsAt
          (fun final =>
            ∃ items,
              (items = rest ∨ items = rest ++ [item]) ∧
                queued items final ∧
                cost items final < cost (item :: rest) state)
          stopped (visit item) state)
    {fuel : Nat}
    {items : List Node}
    {state : σ}
    {item next : Node}
    (holds : queued items state)
    (enough : cost items state < fuel)
    (isFirst : item = items.headD head)
    (isNext : ∀ rest, items = item :: rest → next = rest.headD head) :
    KeepsAt
      (fun final =>
        ∃ left,
          queued left final ∧
            cost left final ≤ cost items state ∧
            (items ≠ [] → cost left final < cost items state))
      stopped
      (forEachEntrySafe links head visit diverges fuel item next)
      state := by
  induction fuel generalizing items state item next with
  | zero =>
      exact absurd enough (Nat.not_lt_zero _)
  | succ fuel inductionHypothesis =>
      unfold forEachEntrySafe
      cases items with
      | nil =>
          rw [if_pos (show item = head from isFirst)]
          exact .of_ok (pure_apply _ _)
            ⟨[], holds, Nat.le_refl _, fun nonempty => absurd rfl nonempty⟩
      | cons first rest =>
          have isItem : item = first := isFirst
          subst isItem
          have notHead := (represents _ _ holds).ne_head List.mem_cons_self
          rw [if_neg notHead, isNext rest rfl]
          have visited := visits item rest state holds
          unfold KeepsAt at visited
          cases outcome : visit item state with
          | error reason final =>
              rw [outcome] at visited
              exact .of_error (bind_of_error outcome _) visited
          | ok value middle =>
              rw [outcome] at visited
              obtain ⟨left, shape, kept, less⟩ := visited
              unfold KeepsAt
              rw [bind_of_ok outcome, bind_of_ok (read_apply _ _)]
              cases rest with
              | nil =>
                  -- The node was the last one: the pass is at the head.
                  rw [List.headD_nil]
                  cases fuel with
                  | zero => omega
                  | succ fuel =>
                      rw [forEachEntrySafe, if_pos rfl]
                      exact ⟨left, kept, Nat.le_of_lt less, fun _ => less⟩
              | cons second others =>
                  obtain ⟨behind, isLeft⟩ :
                      ∃ behind, left = second :: behind := by
                    rcases shape with rfl | rfl
                    · exact ⟨_, rfl⟩
                    · exact ⟨_, rfl⟩
                  subst isLeft
                  have following :=
                    (represents _ _ kept).next_eq []
                  have rest := inductionHypothesis kept (by omega)
                    (show second = (second :: behind).headD head from rfl)
                    (fun others shape =>
                      show (links middle).next second =
                          others.headD head by
                        rw [following, (List.cons.inj shape).2])
                  rw [List.headD_cons]
                  refine KeepsAt.mono rest ?_ (fun _ _ => id)
                  rintro final ⟨left, kept, notMore, _⟩
                  exact ⟨left, kept, by omega, fun _ => by omega⟩

/--
A pass over a list that grows at its end while it goes.  A visit removes its
node or leaves it where it is, and pays for every node it adds out of a budget.
The pass ends with the visit to the node that was the last one before it.
-/
theorem forEachEntrySafe_pass
    (passing : List Node → List Node → σ → Prop)
    (budget : σ → Nat)
    {ended : σ → Prop}
    {stopped : ε → σ → Prop}
    (represents :
      ∀ before items state,
        passing before items state →
          (links state).Represents head (before ++ items))
    (visits :
      ∀ before item rest state,
        passing before (item :: rest) state →
        KeepsAt
          (fun final =>
            ∃ before' added,
              passing before' (rest ++ added) final ∧
                added.length + budget final ≤ budget state ∧
                (rest = [] → ended final))
          stopped (visit item) state)
    (nothing : ∀ before state, passing before [] state → ended state)
    {fuel : Nat}
    {before items : List Node}
    {state : σ}
    {item next : Node}
    (holds : passing before items state)
    (enough : items.length + budget state < fuel)
    (isFirst : item = items.headD head)
    (isNext : ∀ rest, items = item :: rest → next = rest.headD head) :
    KeepsAt ended stopped
      (forEachEntrySafe links head visit diverges fuel item next)
      state := by
  induction fuel generalizing before items state item next with
  | zero =>
      exact absurd enough (Nat.not_lt_zero _)
  | succ fuel inductionHypothesis =>
      unfold forEachEntrySafe
      cases items with
      | nil =>
          rw [if_pos (show item = head from isFirst)]
          exact .of_ok (pure_apply _ _) (nothing before state holds)
      | cons first rest =>
          have isItem : item = first := isFirst
          subst isItem
          have notHead : item ≠ head :=
            (represents _ _ _ holds).ne_head (by simp)
          rw [if_neg notHead, isNext rest rfl]
          apply (visits before item rest state holds).seq
          rintro _ middle _ ⟨before', added, passes, paid, ends⟩
          refine KeepsAt.read ?_
          rw [List.length_cons] at enough
          cases rest with
          | nil =>
              -- The successor that was looked up before the visit is the head.
              cases fuel with
              | zero => omega
              | succ fuel =>
                  rw [List.headD_nil, forEachEntrySafe, if_pos rfl]
                  exact .of_ok (pure_apply _ _) (ends rfl)
          | cons second others =>
              have following := (represents _ _ _ passes).next_eq before'
              apply inductionHypothesis passes
              · simp only [List.cons_append, List.length_cons,
                  List.length_append] at enough ⊢
                omega
              · rfl
              · intro behind shape
                rw [List.headD_cons, following,
                  (List.cons.inj shape).2]

/--
`list_for_each_entry`: the successor of a node is looked up after the visit.
-/
def forEachEntry
    (links : σ → Links Node)
    (head : Node)
    (visit : Node → EStateM ε σ Unit)
    (diverges : ε) :
    Nat → Node → EStateM ε σ Unit
  | 0, _ => stop diverges
  | fuel + 1, item =>
      if item = head then
        pure ()
      else do
        visit item
        let following ← read fun state => (links state).next item
        forEachEntry links head visit diverges fuel following

/--
A pass over a list that grows at its end while it goes, and loses no node.
Every visit pays for the nodes it adds out of a budget, and the pass visits
them too.
-/
theorem forEachEntry_pass
    (passing : List Node → List Node → σ → Prop)
    (budget : σ → Nat)
    {stopped : ε → σ → Prop}
    (represents :
      ∀ before items state,
        passing before items state →
          (links state).Represents head (before ++ items))
    (visits :
      ∀ before item rest state,
        passing before (item :: rest) state →
        KeepsAt
          (fun final =>
            ∃ added,
              passing (before ++ [item]) (rest ++ added) final ∧
                added.length + budget final ≤ budget state)
          stopped (visit item) state)
    {fuel : Nat}
    {before items : List Node}
    {state : σ}
    {item : Node}
    (holds : passing before items state)
    (enough : items.length + budget state < fuel)
    (isFirst : item = items.headD head) :
    KeepsAt (fun final => ∃ passed, passing passed [] final) stopped
      (forEachEntry links head visit diverges fuel item) state := by
  induction fuel generalizing before items state item with
  | zero =>
      exact absurd enough (Nat.not_lt_zero _)
  | succ fuel inductionHypothesis =>
      unfold forEachEntry
      cases items with
      | nil =>
          rw [if_pos (show item = head from isFirst)]
          exact .of_ok (pure_apply _ _) ⟨before, holds⟩
      | cons first rest =>
          have isItem : item = first := isFirst
          subst isItem
          have notHead : item ≠ head :=
            (represents _ _ _ holds).ne_head (by simp)
          rw [if_neg notHead]
          apply (visits before item rest state holds).seq
          rintro _ middle _ ⟨added, passes, paid⟩
          refine KeepsAt.read ?_
          have chain := represents _ _ _ passes
          rw [List.append_assoc, List.singleton_append] at chain
          rw [chain.next_eq before]
          rw [List.length_cons] at enough
          apply inductionHypothesis passes
          · rw [List.length_append]
            omega
          · rfl

end ForEach

end Links

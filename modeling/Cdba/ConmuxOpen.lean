import Cdba.ConmuxBounds

namespace Cdba

/-!
# Opening a conmux console

`conmux_open` tries every address of the console and goes on with what the
last one left, and it takes from both replies what it needs without a look at
whether it is there.
-/

open PercentEncoding (Writes IsUnit Ends BrokenEscape)

/-! ## The addresses -/

/-- The addresses that `connect` is called for. -/
def attempted (addrs : List AddressOutcome) : List AddressOutcome :=
  addrs.takeWhile (· ≠ .noSocket)

/-- The descriptors whose `connect` succeeds. -/
def connectedFds (addrs : List AddressOutcome) : List Nat :=
  addrs.filterMap fun
    | .connected fd => some fd
    | _ => none

/-- Any address that can be reached suffices, and only one stays open. -/
structure AnyAddressSuffices (addrs : List AddressOutcome) : Prop where
  goesOn :
    (∃ state, connectConmux addrs = .ok state) ↔
      ∃ fd, .connected fd ∈ attempted addrs
  keepsOne :
    ∀ state, connectConmux addrs = .ok state →
      ∃ fd : Nat,
        state.fd = fd ∧ .connected fd ∈ attempted addrs ∧
          state.opened = [fd]

/-- What an address leaves in `fd`. -/
def AddressOutcome.left : AddressOutcome → Int
  | .noSocket => -1
  | .refused _ => -1
  | .connected fd => fd

/-- The loop ends with what the last address left. -/
theorem tryAddresses_eq
    (addrs : List AddressOutcome)
    (state : ConnectState) :
    tryAddresses addrs state =
      if .noSocket ∈ addrs then
        .error (.exit "failed to create registry socket")
      else
        .ok
          { fd := (addrs.getLast?.map AddressOutcome.left).getD state.fd
            opened := state.opened ++ connectedFds addrs } := by
  induction addrs generalizing state with
  | nil => simp [tryAddresses, connectedFds]
  | cons addr addrs inductionHypothesis =>
      cases addr with
      | noSocket => simp [tryAddresses]
      | refused fd =>
          rw [tryAddresses, inductionHypothesis, List.getLast?_cons]
          simp only [List.mem_cons, reduceCtorEq, false_or]
          cases addrs.getLast? <;> rfl
      | connected fd =>
          rw [tryAddresses, inductionHypothesis, List.getLast?_cons]
          simp only [List.mem_cons, reduceCtorEq, false_or,
            List.append_assoc]
          cases addrs.getLast? <;> rfl

/-- `conmux_open` goes on when the last address was reached. -/
theorem connectConmux_ok
    {addrs : List AddressOutcome}
    {state : ConnectState} :
    connectConmux addrs = .ok state ↔
      .noSocket ∉ addrs ∧
        ∃ fd : Nat,
          addrs.getLast? = some (.connected fd) ∧
            state = { fd := fd, opened := connectedFds addrs } := by
  rw [connectConmux, tryAddresses_eq]
  by_cases noSocket : AddressOutcome.noSocket ∈ addrs
  · rw [if_pos noSocket]
    simp [noSocket, bind, Except.bind]
  · rw [if_neg noSocket]
    cases last : addrs.getLast? with
    | none => simp [orExit, bind, Except.bind]
    | some addr =>
        cases addr with
        | noSocket => simp [AddressOutcome.left, orExit, bind, Except.bind]
        | refused fd => simp [AddressOutcome.left, orExit, bind, Except.bind]
        | connected fd =>
            have isFd : (fd : Int) ≠ -1 := by omega
            simp [AddressOutcome.left, orExit, bind, Except.bind, pure,
              Except.pure, isFd, noSocket, eq_comm]

theorem mem_connectedFds
    {addrs : List AddressOutcome}
    {fd : Nat} :
    fd ∈ connectedFds addrs ↔ .connected fd ∈ addrs := by
  rw [connectedFds, List.mem_filterMap]
  constructor
  · rintro ⟨addr, member, isFd⟩
    cases addr with
    | connected other =>
        cases isFd
        exact member
    | noSocket => cases isFd
    | refused other => cases isFd
  · intro member
    exact ⟨_, member, rfl⟩

/-- Where the connects that were attempted lie among the addresses. -/
theorem mem_attempted
    {addrs : List AddressOutcome}
    {fd : Nat} :
    .connected fd ∈ attempted addrs ↔
      ∃ front rest,
        addrs = front ++ .connected fd :: rest ∧ .noSocket ∉ front := by
  constructor
  · intro member
    obtain ⟨front, rest, shape⟩ := List.append_of_mem member
    have split : addrs =
        attempted addrs ++ addrs.dropWhile (· ≠ .noSocket) :=
      List.takeWhile_append_dropWhile.symm
    refine ⟨front, rest ++ addrs.dropWhile (· ≠ .noSocket), ?_, ?_⟩
    · rw [← List.cons_append, ← List.append_assoc, ← shape]
      exact split
    · intro noSocket
      have inside : AddressOutcome.noSocket ∈ attempted addrs := by
        rw [shape]
        exact List.mem_append_left _ noSocket
      exact not_mem_takeWhile_ne addrs inside
  · rintro ⟨front, rest, rfl, noSocket⟩
    rw [attempted, takeWhile_ne_append noSocket, List.takeWhile_cons,
      if_pos (by simp)]
    exact List.mem_append_right _ List.mem_cons_self

/-- The last address, when `conmux_open` goes on. -/
theorem addrs_of_ok
    {addrs : List AddressOutcome}
    {state : ConnectState}
    (goesOn : connectConmux addrs = .ok state) :
    ∃ (front : List AddressOutcome) (fd : Nat),
      addrs = front ++ [.connected fd] ∧ .noSocket ∉ front ∧
        state = { fd := fd, opened := connectedFds front ++ [fd] } := by
  obtain ⟨noSocket, fd, isLast, stateIs⟩ := connectConmux_ok.mp goesOn
  obtain ⟨front, rfl⟩ := List.getLast?_eq_some_iff.mp isLast
  refine ⟨front, fd, rfl, ?_, ?_⟩
  · intro member
    exact noSocket (List.mem_append_left _ member)
  · rw [stateIs, connectedFds, connectedFds, List.filterMap_append]
    rfl

/--
An address that can be reached suffices exactly when no connect succeeds at
an address that another one follows.
-/
theorem connectConmux_suffices_iff
    (addrs : List AddressOutcome) :
    AnyAddressSuffices addrs ↔
      ∀ front fd rest,
        addrs = front ++ .connected fd :: rest →
        .noSocket ∉ front →
        rest = [] := by
  constructor
  · intro enough front fd rest shape noSocket
    have member := mem_attempted.mpr ⟨front, rest, shape, noSocket⟩
    obtain ⟨state, goesOn⟩ := enough.goesOn.mpr ⟨fd, member⟩
    obtain ⟨init, last, addrsIs, _, stateIs⟩ := addrs_of_ok goesOn
    obtain ⟨kept, _, _, opened⟩ := enough.keepsOne state goesOn
    have none : connectedFds init = [] := by
      rw [stateIs] at opened
      have counted := congrArg List.length opened
      rw [List.length_append, List.length_singleton,
        List.length_singleton] at counted
      exact List.eq_nil_of_length_eq_zero (by omega)
    rw [shape] at addrsIs
    cases ends : rest.reverse with
    | nil => exact List.reverse_eq_nil_iff.mp ends
    | cons next before =>
        -- The address that another one follows would be open as well.
        rw [List.reverse_eq_cons_iff] at ends
        rw [ends, ← List.cons_append, ← List.append_assoc] at addrsIs
        have isInit := (List.append_inj' addrsIs rfl).1
        have open_ : fd ∈ connectedFds init := by
          rw [mem_connectedFds, ← isInit]
          exact List.mem_append_right _ List.mem_cons_self
        rw [none] at open_
        cases open_
  · intro last
    refine ⟨⟨?_, ?_⟩, ?_⟩
    · rintro ⟨state, goesOn⟩
      obtain ⟨front, fd, addrsIs, noSocket, _⟩ := addrs_of_ok goesOn
      exact ⟨fd, mem_attempted.mpr ⟨front, [], addrsIs, noSocket⟩⟩
    · rintro ⟨fd, member⟩
      obtain ⟨front, rest, addrsIs, noSocket⟩ := mem_attempted.mp member
      have isLast := last front fd rest addrsIs noSocket
      subst isLast
      refine ⟨_, connectConmux_ok.mpr ⟨?_, fd, ?_, rfl⟩⟩
      · rw [addrsIs]
        simp [noSocket]
      · rw [addrsIs, List.getLast?_append]
        rfl
    · intro state goesOn
      obtain ⟨front, fd, addrsIs, noSocket, stateIs⟩ := addrs_of_ok goesOn
      have none : connectedFds front = [] := by
        rw [List.eq_nil_iff_forall_not_mem]
        intro other isOpen
        obtain ⟨before, behind, frontIs⟩ :=
          List.append_of_mem (mem_connectedFds.mp isOpen)
        rw [frontIs, List.append_assoc, List.cons_append] at addrsIs
        have nothing := last before other _ addrsIs (fun member =>
          noSocket (frontIs ▸ List.mem_append_left _ member))
        exact List.append_ne_nil_of_right_ne_nil _ (List.cons_ne_nil _ _)
          nothing
      refine ⟨fd, ?_, mem_attempted.mpr ⟨front, [], addrsIs, noSocket⟩, ?_⟩
      · rw [stateIs]
      · rw [stateIs, none]
        rfl

/-- An address that answers in front of one that does not. -/
theorem secondAddress_refused :
    ¬ ∀ addrs : List AddressOutcome,
      addrs ≠ [] → .noSocket ∉ addrs → AnyAddressSuffices addrs := by
  intro enough
  have here := enough [.connected 5, .refused 6] (by decide) (by decide)
  obtain ⟨state, goesOn⟩ := here.goesOn.mpr ⟨5, by decide⟩
  cases goesOn

/-! ## Replies whose keys and values fit -/

/-- No key or value at the start of an item has more than 63 characters. -/
def ShortItem (start : List UInt8) : Prop :=
  ∀ spaces key rest,
    start = spaces ++ (key ++ rest) →
    (∀ ch, ch ∈ spaces → isSpace ch = true) →
    (∀ ch, ch ∈ key → isAlpha ch = true) →
    key.length ≤ 63 ∧
      ∀ (units : List (List UInt8)) (tail : List UInt8),
        rest = 0x3d :: (units.flatten ++ tail) →
        (∀ unit, unit ∈ units → IsUnit isGraphic unit) →
        units.length ≤ 63

/-- A reply without keys and values of more than 63 characters. -/
def ShortReply (reply : CString) : Prop :=
  ∀ start, StartsItem reply start → ShortItem start

theorem ShortReply.staysInside
    {reply : CString}
    (short : ShortReply reply)
    (terminated : 0 ∉ reply) :
    StaysInside reply := by
  intro fault
  refine run_of_itemFits terminated (Nat.lt_succ_self _) ?_ fault
  intro start starts spaces key rest shape blank letters
  obtain ⟨shortKey, shortValue⟩ :=
    short start starts spaces key rest shape blank letters
  refine ⟨Nat.lt_succ_of_le shortKey, ?_⟩
  intro units tail restIs areUnits count
  exact absurd (shortValue units tail restIs areUnits) (by omega)

/-- The items of a short reply are short. -/
theorem ShortReply.shortItems
    {text : List UInt8}
    (short : ShortReply text)
    {items : List (CString × List UInt8)}
    (isReply : ReplyItems items text) :
    ShortItems items := by
  induction isReply with
  | blank => nofun
  | item spaces key value units items rest blank letters writes separated
      later inductionHypothesis =>
      obtain ⟨shortKey, shortValue⟩ :=
        short _ (.here _) spaces key _ rfl blank letters
      have areUnits := PercentEncoding.isUnit_of_forall₂ writes
      have count := shortValue units rest rfl areUnits
      have length := writes.length_eq
      intro item member
      rcases List.mem_cons.mp member with rfl | behind
      · exact ⟨Nat.lt_succ_of_le shortKey, by dsimp only; omega⟩
      · refine inductionHypothesis (fun start starts => ?_) item behind
        exact short start (.next spaces key value units rest start blank
          letters writes (ends_of_separated separated) starts)

/-- What `parse_response` tells its callers about a short reply. -/
structure ParsesAs
    (reply : CString)
    (ret : Int)
    (resp : ConmuxResponse) : Prop where
  parsed : parseReply reply = .ok (ret, resp)
  decides : ret = 0 ↔ ∃ items, ReplyItems items reply
  fields :
    ∀ items,
      ReplyItems items reply →
      ∀ key : ReplyKey, key.field resp = lastValue items key.word

theorem ShortReply.parsesAs
    {reply : CString}
    (short : ShortReply reply)
    (terminated : 0 ∉ reply) :
    ∃ ret resp, ParsesAs reply ret resp := by
  have complete :
      ∀ items,
        ReplyItems items reply →
        parseResponse reply = .ok (0, assignAll .empty items) :=
    fun items isReply =>
      isReply.parse (short.shortItems isReply) (Nat.lt_succ_self _) .empty
  cases parsed : parseResponse reply with
  | error fault => exact absurd parsed (short.staysInside terminated fault)
  | ok result =>
      obtain ⟨ret, resp⟩ := result
      rw [parsed] at complete
      refine ⟨ret, resp, by rw [parseReply, parsed], ⟨?_, ?_⟩, ?_⟩
      · rintro rfl
        obtain ⟨items, isReply, _⟩ :=
          replyItems_of_parse terminated parsed
        exact ⟨items, isReply⟩
      · rintro ⟨items, isReply⟩
        cases complete items isReply
        rfl
      · intro items isReply key
        cases complete items isReply
        have none : key.field .empty = none := by
          cases key <;> rfl
        rw [field_assignAll, none, Option.or_none]

/-! ## What the replies decide -/

/-- The registry names a host and a port and says OK. -/
def NamesAddress (reply host port : CString) : Prop :=
  ∃ items,
    ReplyItems items reply ∧
      lastValue items (ascii "status") = some (ascii "OK") ∧
      lastValue items (ascii "result") = some (host ++ 0x3a :: port) ∧
      0x3a ∉ host

/-- The console says OK. -/
def SaysOk (reply : CString) : Prop :=
  ∃ items,
    ReplyItems items reply ∧
      lastValue items (ascii "status") = some (ascii "OK")

/-- A registry's answer decides `registry_lookup`, which meets no `NULL`. -/
structure LookupSafe (received : List UInt8) : Prop where
  noNull : ∀ field, lookupResult received ≠ .error (.null field)
  decides :
    ∀ value,
      lookupResult received = .ok (0, value) ↔
        ∃ host port,
          value = some ⟨host, port⟩ ∧
            NamesAddress (registryLine received) host port

/-- A console's answer decides `conmux_open`, which meets no `NULL`. -/
structure ConnectSafe (received : List UInt8) : Prop where
  noNull : ∀ field, checkConnected received ≠ .error (.null field)
  decides : checkConnected received = .ok () ↔ SaysOk (cstr received)

/-- A line with a result, and with a status if the result has a colon. -/
def LineComplete (reply : CString) : Prop :=
  ∀ items,
    ReplyItems items reply →
    ∃ result,
      lastValue items (ascii "result") = some result ∧
        (0x3a ∈ result → (lastValue items (ascii "status")).isSome)

/-- A reply with a status. -/
def HasStatus (reply : CString) : Prop :=
  ∀ items,
    ReplyItems items reply →
    (lastValue items (ascii "status")).isSome

section Parsed

variable {reply : CString} {ret : Int} {resp : ConmuxResponse}

/-- A reply that was refused has no items. -/
theorem ParsesAs.noItems
    (parses : ParsesAs reply ret resp)
    (refused : ret ≠ 0)
    (items : List (CString × List UInt8)) :
    ¬ ReplyItems items reply :=
  fun isReply => refused (parses.decides.mpr ⟨items, isReply⟩)

theorem ParsesAs.result
    (parses : ParsesAs reply ret resp)
    {items : List (CString × List UInt8)}
    (isReply : ReplyItems items reply) :
    lastValue items (ascii "result") = resp.result :=
  (parses.fields items isReply .result).symm

theorem ParsesAs.status
    (parses : ParsesAs reply ret resp)
    {items : List (CString × List UInt8)}
    (isReply : ReplyItems items reply) :
    lastValue items (ascii "status") = resp.status :=
  (parses.fields items isReply .status).symm

theorem ParsesAs.namesAddress_iff
    (parses : ParsesAs reply 0 resp)
    (host port : CString) :
    NamesAddress reply host port ↔
      resp.status = some (ascii "OK") ∧
        resp.result = some (host ++ 0x3a :: port) ∧ 0x3a ∉ host := by
  constructor
  · rintro ⟨items, isReply, named⟩
    rwa [parses.status isReply, parses.result isReply] at named
  · intro named
    obtain ⟨items, isReply⟩ := parses.decides.mp rfl
    rw [← parses.status isReply, ← parses.result isReply] at named
    exact ⟨items, isReply, named⟩

theorem ParsesAs.saysOk_iff
    (parses : ParsesAs reply 0 resp) :
    SaysOk reply ↔ resp.status = some (ascii "OK") := by
  constructor
  · rintro ⟨items, isReply, isOk⟩
    rwa [parses.status isReply] at isOk
  · intro isOk
    obtain ⟨items, isReply⟩ := parses.decides.mp rfl
    rw [← parses.status isReply] at isOk
    exact ⟨items, isReply, isOk⟩

theorem ParsesAs.lineComplete_iff
    (parses : ParsesAs reply 0 resp) :
    LineComplete reply ↔
      ∃ result,
        resp.result = some result ∧
          (0x3a ∈ result → resp.status.isSome) := by
  constructor
  · intro complete
    obtain ⟨items, isReply⟩ := parses.decides.mp rfl
    have here := complete items isReply
    rwa [parses.status isReply, parses.result isReply] at here
  · intro here items isReply
    rwa [parses.status isReply, parses.result isReply]

theorem ParsesAs.hasStatus_iff
    (parses : ParsesAs reply 0 resp) :
    HasStatus reply ↔ resp.status.isSome := by
  constructor
  · intro has
    obtain ⟨items, isReply⟩ := parses.decides.mp rfl
    have here := has items isReply
    rwa [parses.status isReply] at here
  · intro here items isReply
    rwa [parses.status isReply]

end Parsed

theorem not_mem_registryLine
    (received : List UInt8) :
    0 ∉ registryLine received :=
  fun member => not_mem_cstr received ((List.takeWhile_prefix _).subset member)

/-- A text is what lies in front of its first colon and behind it. -/
theorem eq_append_colon
    {text host port : CString}
    (noColon : 0x3a ∉ host) :
    text = host ++ 0x3a :: port ↔
      0x3a ∈ text ∧
        text.takeWhile (· ≠ 0x3a) = host ∧
        (text.dropWhile (· ≠ 0x3a)).tail = port := by
  constructor
  · rintro rfl
    rw [takeWhile_ne_append noColon, dropWhile_ne_append noColon]
    simp
  · rintro ⟨colon, rfl, rfl⟩
    cases behind : text.dropWhile (· ≠ 0x3a) with
    | nil => exact absurd colon (not_mem_of_dropWhile_ne behind)
    | cons ch port => exact eq_append_of_dropWhile_ne behind

/-- `registry_lookup` behind `parse_response`. -/
theorem lookupResult_eq
    {received : List UInt8}
    {ret : Int}
    {resp : ConmuxResponse}
    (parses : ParsesAs (registryLine received) ret resp) :
    lookupResult received =
      if ret ≠ 0 then
        .ok (ret, none)
      else
        match resp.result with
        | none => .error (.null "result")
        | some result =>
            if 0x3a ∉ result then
              .ok (-1, none)
            else
              match resp.status with
              | none => .error (.null "status")
              | some status =>
                  .ok (if status = ascii "OK" then 0 else -1,
                    some
                      { host := result.takeWhile (· ≠ 0x3a)
                        port := (result.dropWhile (· ≠ 0x3a)).tail }) := by
  rw [lookupResult, parses.parsed]
  simp only [bind, Except.bind, pure, Except.pure]
  split
  · rfl
  · cases resp.result with
    | none => rfl
    | some result =>
        simp only [stringArg]
        split
        · rfl
        · cases resp.status <;> rfl

theorem checkConnected_eq
    {received : List UInt8}
    {ret : Int}
    {resp : ConmuxResponse}
    (parses : ParsesAs (cstr received) ret resp) :
    checkConnected received =
      if ret ≠ 0 then
        .error (.exit "failed to connect to conmux instance")
      else
        match resp.status with
        | none => .error (.null "status")
        | some status =>
            if status = ascii "OK" then
              .ok ()
            else
              .error (.exit "failed to connect to conmux instance") := by
  rw [checkConnected, parses.parsed]
  simp only [bind, Except.bind]
  split
  · rfl
  · cases resp.status with
    | none => rfl
    | some status =>
        simp only [stringArg, orExit, decide_eq_true_eq]

/-- The answer of a console is used safely when it has a status. -/
theorem connectSafe_iff
    {received : List UInt8}
    (short : ShortReply (cstr received)) :
    ConnectSafe received ↔ HasStatus (cstr received) := by
  obtain ⟨ret, resp, parses⟩ := short.parsesAs (not_mem_cstr received)
  have checks := checkConnected_eq parses
  by_cases failed : ret = 0
  · subst failed
    rw [if_neg (not_not_intro rfl)] at checks
    rw [parses.hasStatus_iff]
    cases hasStatus : resp.status with
    | none =>
        rw [hasStatus] at checks
        exact ⟨fun safe => absurd checks (safe.noNull "status"), nofun⟩
    | some status =>
        rw [hasStatus] at checks
        dsimp only at checks
        refine ⟨fun _ => rfl, fun _ => ⟨?_, ?_⟩⟩
        · intro field isNull
          rw [checks] at isNull
          split at isNull <;> cases isNull
        · rw [checks, parses.saysOk_iff, hasStatus, Option.some.injEq]
          split
          · rename_i isOk
            exact iff_of_true rfl isOk
          · rename_i notOk
            exact iff_of_false nofun notOk
  · rw [if_pos failed] at checks
    refine ⟨fun _ items isReply =>
      absurd isReply (parses.noItems failed items), fun _ => ⟨?_, ?_⟩⟩
    · intro field isNull
      rw [checks] at isNull
      cases isNull
    · rw [checks]
      refine iff_of_false nofun ?_
      rintro ⟨items, isReply, _⟩
      exact parses.noItems failed items isReply

/-- A look-up that returns is safe if it returns what was named. -/
theorem lookupSafe_of_ok
    {received : List UInt8}
    {ret : Int}
    {value : Option ConmuxLookup}
    (looksUp : lookupResult received = .ok (ret, value))
    (decides :
      ∀ given,
        ret = 0 ∧ value = given ↔
          ∃ host port,
            given = some ⟨host, port⟩ ∧
              NamesAddress (registryLine received) host port) :
    LookupSafe received where
  noNull := by
    intro field isNull
    rw [looksUp] at isNull
    cases isNull
  decides := by
    intro given
    rw [looksUp, ← decides, Except.ok.injEq, Prod.mk.injEq]

/-- What a result with a colon and a status name. -/
theorem ParsesAs.names_iff
    {reply result status : CString}
    {resp : ConmuxResponse}
    (parses : ParsesAs reply 0 resp)
    (isResult : resp.result = some result)
    (isStatus : resp.status = some status)
    (colon : 0x3a ∈ result)
    (given : Option ConmuxLookup) :
    (if status = ascii "OK" then (0 : Int) else -1) = 0 ∧
        some
            { host := result.takeWhile (· ≠ 0x3a)
              port := (result.dropWhile (· ≠ 0x3a)).tail } = given ↔
      ∃ host port,
        given = some ⟨host, port⟩ ∧ NamesAddress reply host port := by
  simp only [parses.namesAddress_iff, isResult, isStatus, Option.some.injEq]
  constructor
  · rintro ⟨isRet, rfl⟩
    have isOk : status = ascii "OK" := by
      by_contra notOk
      rw [if_neg notOk] at isRet
      cases isRet
    have noColon : (0x3a : UInt8) ∉ result.takeWhile (· ≠ 0x3a) :=
      not_mem_takeWhile_ne result
    exact ⟨_, _, rfl, isOk,
      (eq_append_colon noColon).mpr ⟨colon, rfl, rfl⟩, noColon⟩
  · rintro ⟨host, port, rfl, isOk, isText, noColon⟩
    obtain ⟨_, isHost, isPort⟩ := (eq_append_colon noColon).mp isText
    rw [if_pos isOk, isHost, isPort]
    exact ⟨rfl, rfl⟩

/-- The answer of a registry is used safely when its line is complete. -/
theorem lookupSafe_iff
    {received : List UInt8}
    (short : ShortReply (registryLine received)) :
    LookupSafe received ↔ LineComplete (registryLine received) := by
  obtain ⟨ret, resp, parses⟩ :=
    short.parsesAs (not_mem_registryLine received)
  have looksUp := lookupResult_eq parses
  by_cases failed : ret = 0
  · subst failed
    rw [if_neg (not_not_intro rfl)] at looksUp
    rw [parses.lineComplete_iff]
    cases hasResult : resp.result with
    | none =>
        rw [hasResult] at looksUp
        exact ⟨fun safe => absurd looksUp (safe.noNull "result"), nofun⟩
    | some result =>
        rw [hasResult] at looksUp
        simp only [Option.some.injEq, exists_eq_left']
        by_cases colon : 0x3a ∈ result
        · simp only [colon, not_true_eq_false, if_false] at looksUp
          cases hasStatus : resp.status with
          | none =>
              rw [hasStatus] at looksUp
              refine ⟨fun safe => absurd looksUp (safe.noNull "status"), ?_⟩
              intro isSome
              exact absurd (isSome colon) (by decide)
          | some status =>
              rw [hasStatus] at looksUp
              exact ⟨fun _ _ => rfl, fun _ => lookupSafe_of_ok looksUp
                (parses.names_iff hasResult hasStatus colon)⟩
        · simp only [colon, not_false_eq_true, if_true] at looksUp
          refine ⟨fun _ isColon => absurd isColon colon,
            fun _ => lookupSafe_of_ok looksUp fun given =>
              iff_of_false nofun ?_⟩
          rintro ⟨host, port, _, named⟩
          obtain ⟨_, isText, _⟩ :=
            (parses.namesAddress_iff host port).mp named
          rw [hasResult, Option.some.injEq] at isText
          rw [isText] at colon
          exact colon (by simp)
  · rw [if_pos failed] at looksUp
    refine ⟨fun _ items isReply =>
      absurd isReply (parses.noItems failed items),
      fun _ => lookupSafe_of_ok looksUp fun given =>
        iff_of_false (fun isZero => failed isZero.1) ?_⟩
    rintro ⟨host, port, _, items, isReply, _⟩
    exact parses.noItems failed items isReply

/-! ## Both replies -/

/--
For a registry's and a console's reply without long keys and values, the
replies decide and no `NULL` is used exactly when what is used is there: a
result, a status if the result has a colon, and the status of the console.
-/
theorem conmuxReplies_safe_iff
    {registry console : List UInt8}
    (shortRegistry : ShortReply (registryLine registry))
    (shortConsole : ShortReply (cstr console)) :
    LookupSafe registry ∧ ConnectSafe console ↔
      LineComplete (registryLine registry) ∧ HasStatus (cstr console) := by
  rw [lookupSafe_iff shortRegistry, connectSafe_iff shortConsole]

/-- Keys and values are no longer than the reply. -/
theorem shortReply_of_length
    {reply : CString}
    (short : reply.length ≤ 63) :
    ShortReply reply := by
  intro start starts
  have within : start.length ≤ 63 := by
    induction starts with
    | here => exact short
    | next spaces key value units rest start _ _ _ _ _
        inductionHypothesis =>
        apply inductionHypothesis
        simp only [List.length_append, List.length_cons] at short
        omega
  intro spaces key rest shape _ _
  rw [shape] at within
  simp only [List.length_append] at within
  refine ⟨by omega, ?_⟩
  intro units tail restIs areUnits
  have count := PercentEncoding.length_le_flatten areUnits
  rw [restIs, List.length_cons, List.length_append] at within
  omega

/-- A registry that says OK without a result. -/
theorem exampleReplies_safe_iff :
    LookupSafe (ascii "status=OK") ∧ ConnectSafe (ascii "status=OK") ↔
      LineComplete (registryLine (ascii "status=OK")) ∧
        HasStatus (cstr (ascii "status=OK")) :=
  conmuxReplies_safe_iff (shortReply_of_length (by decide))
    (shortReply_of_length (by decide))

/-- In an empty answer `strchr` is called on the result that is missing. -/
theorem missingResult_unsafe :
    ¬ ∀ registry console : List UInt8,
      ShortReply (registryLine registry) →
      ShortReply (cstr console) →
      LookupSafe registry ∧ ConnectSafe console := by
  intro safe
  obtain ⟨lookup, _⟩ := safe [] []
    (shortReply_of_length (by decide)) (shortReply_of_length (by decide))
  exact lookup.noNull "result" rfl

/-! ## The whole of `conmux_open` -/

/-- A console that is opened uses an address and was told OK. -/
theorem conmuxOpen_ok
    {service : CString}
    {script : ConmuxScript}
    {state : ConnectState}
    (opens : conmuxOpen service script = .ok state) :
    ∃ lookup addrs received,
      registryLookup service script.registry = .ok (0, some lookup) ∧
        script.getaddrinfo lookup.host lookup.port = some addrs ∧
        connectConmux addrs = .ok state ∧
        script.read = some received ∧
        checkConnected (received.take 255) = .ok () := by
  have bind_ok :
      ∀ {α β : Type} {first : Except ConmuxStop α}
        {later : α → Except ConmuxStop β} {result : β},
        first.bind later = .ok result →
        ∃ value, first = .ok value ∧ later value = .ok result := by
    intro α β first later result isOk
    cases first with
    | error stop => cases isOk
    | ok value => exact ⟨value, rfl, isOk⟩
  obtain ⟨⟨ret, value⟩, looksUp, opens⟩ := bind_ok opens
  dsimp only at opens
  split at opens
  · rename_i lookup isLookup
    cases isLookup
    split at opens
    · cases opens
    · rename_i addrs resolves
      obtain ⟨connected, connects, opens⟩ := bind_ok opens
      obtain ⟨_, _, opens⟩ := bind_ok opens
      obtain ⟨_, _, opens⟩ := bind_ok opens
      obtain ⟨received, reads, opens⟩ := bind_ok opens
      obtain ⟨_, checks, opens⟩ := bind_ok opens
      cases opens
      cases isRead : script.read with
      | none =>
          rw [isRead] at reads
          cases reads
      | some bytes =>
          rw [isRead] at reads
          cases reads
          exact ⟨lookup, addrs, bytes, looksUp, resolves, connects, rfl,
            checks⟩
  · cases opens

end Cdba

import Cdba.Listing
import Cdba.Server

namespace Cdba

/-!
# Three look-ups of a board

Listing, selecting and describing a board each walk over the devices with a
loop of their own.  The loops differ in what they do about a device that the
user may not use or that has no description, which shows when several devices
carry one name.
-/

open Program

variable {n : Nat}

/-! ## Names -/

/-- The text of a device begins with the name of its board. -/
theorem board_prefix_listingText
    (dev : Device) :
    dev.board <+: listingText dev := by
  unfold listingText padRight20
  cases dev.name with
  | none => exact List.prefix_rfl
  | some name => exact ⟨_, by simp [List.append_assoc]; rfl⟩

/-- Its line begins with the name as long as the buffer holds the name. -/
theorem board_prefix_listingFrame_iff
    {dev : Device}
    (string : 0 ∉ dev.board)
    (beyond : Nat → UInt8) :
    dev.board <+: listingFrame beyond dev ↔ dev.board.length < 80 := by
  have inText := board_prefix_listingText dev
  have shorter := inText.length_le
  constructor
  · intro begins
    apply Nat.lt_of_not_le
    intro long
    have inside : 79 < dev.board.length := by omega
    have frame :=
      getElem_listingFrame_of_long (Nat.le_trans long shorter) beyond
    have nul : dev.board[79]? = some 0 := by
      obtain ⟨rest, shape⟩ := begins
      rw [← shape, List.getElem?_append_left inside] at frame
      exact frame
    exact string (List.mem_of_getElem? nul)
  · intro short
    rw [List.prefix_iff_eq_take] at inText ⊢
    have buffer :
        (snprintfBuf 80 (listingText dev)).take dev.board.length =
          dev.board := by
      have kept : dev.board.length ≤ ((listingText dev).take 79).length := by
        rw [List.length_take]
        omega
      rw [snprintfBuf, List.take_append_of_le_length kept, List.take_take,
        Nat.min_eq_left (by omega)]
      exact inText.symm
    have held :
        dev.board.length ≤ (snprintfBuf 80 (listingText dev)).length := by
      rw [snprintfBuf, List.length_append, List.length_take]
      simp only [List.length_singleton]
      omega
    rw [listingFrame, readMemory_take shorter, readMemory_memoryAt held,
      buffer]

/-! ## The first device with a property -/

theorem find?_finRange_eq_some_iff
    {property : Fin n → Bool}
    {device : Fin n} :
    (List.finRange n).find? property = some device ↔
      property device = true ∧
        ∀ earlier, earlier < device → property earlier = false := by
  rw [List.find?_eq_some_iff_getElem]
  constructor
  · rintro ⟨holds, index, inside, rfl, before⟩
    refine ⟨holds, fun earlier isBefore => ?_⟩
    have position : earlier.val < index := by
      simpa using Fin.lt_def.mp isBefore
    simpa using before earlier.val position
  · rintro ⟨holds, before⟩
    refine ⟨holds, device.val, by simp, by simp, ?_⟩
    intro index isBefore
    simpa using before ⟨index, Nat.lt_trans isBefore device.isLt⟩ isBefore

theorem find?_finRange_eq_none_iff
    {property : Fin n → Bool} :
    (List.finRange n).find? property = none ↔
      ∀ device, property device = false := by
  simp [List.mem_finRange]

/-! ## Agreement -/

/-- The name behind which `device_open` and `device_info` find its NUL. -/
def nameAt (hw : Hw n) (name : CString) : Nat → UInt8 :=
  memoryAt (name ++ [0]) hw.beyond

/--
The list the user gets has a line for each accessible device, and one of these
is the line of a board of this name and begins with the name.
-/
def ShownInList
    (hw : Hw n)
    (username name : CString) :
    Prop :=
  ∃ line : Fin n → List UInt8,
    hw.did (finalState (deviceListDevices (some username) hw)) =
        listingMessages ((listedDevices hw.devices username).map line) ∧
      ∃ device,
        device ∈ listedDevices hw.devices username ∧
          (hw.devices device).board = name ∧ name <+: line device

/-- The description with which `device_info` answers. -/
def AnsweredWith
    (hw : Hw n)
    (username name : CString)
    (description : List UInt8) :
    Prop :=
  hw.did
      (finalState
        (deviceInfo (some username) (nameAt hw name) (name.length + 1) hw)) =
    [.send .boardInfo description]

/-- The three look-ups of a name agree. -/
structure LookupsAgree
    (hw : Hw n)
    (username name : CString) :
    Prop where
  listed :
    ShownInList hw username name ↔
      ∃ device, accessibleBoard? hw username (nameAt hw name) = some device
  described :
    ∀ description,
      description ≠ [] →
      AnsweredWith hw username name description →
      ∃ device,
        accessibleBoard? hw username (nameAt hw name) = some device ∧
          (hw.devices device).description = some description

/-- A device with a name that the user may use. -/
def Device.UsableAs
    (dev : Device)
    (username name : CString) :
    Prop :=
  dev.board = name ∧ deviceCheckAccess dev (some username) = true

/-- The first device with a name. -/
structure FirstNamed
    (devices : Fin n → Device)
    (name : CString)
    (device : Fin n) :
    Prop where
  named : (devices device).board = name
  first : ∀ earlier, earlier < device → (devices earlier).board ≠ name

/-- What the name looks up is decided by the first device that carries it. -/
theorem findBoard_name
    {hw : Hw n}
    {name : CString}
    (boards : ∀ device, 0 ∉ (hw.devices device).board)
    (string : 0 ∉ name)
    (device : Fin n) :
    findBoard hw (nameAt hw name) = some device ↔
      FirstNamed hw.devices name device := by
  unfold findBoard nameAt
  simp only [strcmpEq_name (boards _) string, find?_finRange_eq_some_iff,
    beq_iff_eq, beq_eq_false_iff_ne]
  exact ⟨fun found => ⟨found.1, found.2⟩, fun first => ⟨first.1, first.2⟩⟩

theorem accessibleBoard?_name
    {hw : Hw n}
    {name : CString}
    (boards : ∀ device, 0 ∉ (hw.devices device).board)
    (string : 0 ∉ name)
    (username : CString)
    (device : Fin n) :
    accessibleBoard? hw username (nameAt hw name) = some device ↔
      FirstNamed hw.devices name device ∧
        deviceCheckAccess (hw.devices device) (some username) = true := by
  rw [accessibleBoard?, Option.filter_eq_some_iff, findBoard_name boards string]

/-- A device with the name exists only behind a first one. -/
theorem exists_firstNamed
    {devices : Fin n → Device}
    {name : CString}
    {device : Fin n}
    (named : (devices device).board = name) :
    ∃ first, FirstNamed devices name first := by
  cases found :
      (List.finRange n).find? fun query => (devices query).board == name with
  | none =>
      have other := find?_finRange_eq_none_iff.mp found device
      exact absurd named (beq_eq_false_iff_ne.mp other)
  | some first =>
      obtain ⟨holds, before⟩ := find?_finRange_eq_some_iff.mp found
      exact ⟨first, beq_iff_eq.mp holds,
        fun earlier isBefore => beq_eq_false_iff_ne.mp (before earlier isBefore)⟩

/-- The list shows a name when a usable board carries it and the line holds it. -/
theorem shownInList_iff
    {hw : Hw n}
    {name : CString}
    (boards : ∀ device, 0 ∉ (hw.devices device).board)
    (username : CString) :
    ShownInList hw username name ↔
      (∃ device, (hw.devices device).UsableAs username name) ∧
        name.length < 80 := by
  constructor
  · rintro ⟨line, reply, device, listed, rfl, begins⟩
    rw [deviceListDevices_did] at reply
    have same := List.map_inj_left.mp (listingMessages_inj reply) device listed
    rw [← same, board_prefix_listingFrame_iff (boards device)] at begins
    exact ⟨⟨device, rfl, mem_listedDevices.mp listed⟩, begins⟩
  · rintro ⟨⟨device, rfl, access⟩, short⟩
    refine ⟨_, deviceListDevices_did username hw, device,
      mem_listedDevices.mpr access, rfl, ?_⟩
    exact (board_prefix_listingFrame_iff (boards device) _).mpr short

/-! ## Descriptions -/

/-- The first usable device with the name that has a description. -/
structure FirstDescribed
    (devices : Fin n → Device)
    (username name : CString)
    (device : Fin n)
    (description : CString) :
    Prop where
  usable : (devices device).UsableAs username name
  described : (devices device).description = some description
  first :
    ∀ earlier,
      earlier < device →
      (devices earlier).UsableAs username name →
      (devices earlier).description = none

/-- The condition of the loop in `device_info`. -/
theorem describes_iff
    {dev : Device}
    {name : CString}
    (board : 0 ∉ dev.board)
    (string : 0 ∉ name)
    (username : CString)
    (beyond : Nat → UInt8) :
    (strncmpEq dev.board (memoryAt (name ++ [0]) beyond) (name.length + 1) &&
        deviceCheckAccess dev (some username) && dev.description.isSome) =
      true ↔
      dev.UsableAs username name ∧ dev.description.isSome = true := by
  rw [strncmpEq_name board string, Bool.and_eq_true, Bool.and_eq_true,
    beq_iff_eq]
  rfl

/-- The device whose description `device_info` sends. -/
def describedBoard?
    (hw : Hw n)
    (username name : CString) :
    Option (Fin n) :=
  (List.finRange n).find? fun device =>
    strncmpEq (hw.devices device).board (nameAt hw name) (name.length + 1) &&
      deviceCheckAccess (hw.devices device) (some username) &&
      (hw.devices device).description.isSome

theorem deviceInfo_did
    (hw : Hw n)
    (username name : CString) :
    hw.did
        (finalState
          (deviceInfo (some username) (nameAt hw name) (name.length + 1)
            hw)) =
      [.send .boardInfo
        (((describedBoard? hw username name).bind fun device =>
          (hw.devices device).description).getD [])] :=
  (Does.emit
    (.send .boardInfo
      (((describedBoard? hw username name).bind fun device =>
        (hw.devices device).description).getD [])) hw).did

section Descriptions

variable {hw : Hw n} {username name : CString}

theorem describedBoard?_eq_some_iff
    (boards : ∀ device, 0 ∉ (hw.devices device).board)
    (string : 0 ∉ name)
    {device : Fin n} :
    describedBoard? hw username name = some device ↔
      ∃ description,
        FirstDescribed hw.devices username name device description := by
  rw [describedBoard?, find?_finRange_eq_some_iff, nameAt,
    describes_iff (boards device) string]
  constructor
  · rintro ⟨⟨usable, hasOne⟩, before⟩
    obtain ⟨description, described⟩ := Option.isSome_iff_exists.mp hasOne
    refine ⟨description, usable, described, ?_⟩
    intro earlier isBefore earlierUsable
    have skipped := before earlier isBefore
    rw [← Bool.not_eq_true, describes_iff (boards earlier) string] at skipped
    cases text : (hw.devices earlier).description with
    | none => rfl
    | some other => exact (skipped ⟨earlierUsable, by rw [text]; rfl⟩).elim
  · rintro ⟨description, usable, described, first⟩
    refine ⟨⟨usable, by rw [described]; rfl⟩, ?_⟩
    intro earlier isBefore
    rw [← Bool.not_eq_true, describes_iff (boards earlier) string]
    rintro ⟨earlierUsable, hasOne⟩
    rw [first earlier isBefore earlierUsable] at hasOne
    cases hasOne

/-- The answer is the description of the first device that has one. -/
theorem answeredWith_iff
    (boards : ∀ device, 0 ∉ (hw.devices device).board)
    (string : 0 ∉ name)
    {description : List UInt8}
    (nonempty : description ≠ []) :
    AnsweredWith hw username name description ↔
      ∃ device,
        FirstDescribed hw.devices username name device description := by
  rw [AnsweredWith, deviceInfo_did, List.singleton_inj, Event.send.injEq]
  cases found : describedBoard? hw username name with
  | none =>
      constructor
      · rintro ⟨_, empty⟩
        exact (nonempty empty.symm).elim
      · rintro ⟨device, first⟩
        rw [(describedBoard?_eq_some_iff boards string).mpr
          ⟨description, first⟩] at found
        cases found
  | some device =>
      obtain ⟨text, first⟩ :=
        (describedBoard?_eq_some_iff boards string).mp found
      rw [Option.bind_some, first.described, Option.getD_some]
      constructor
      · rintro ⟨_, rfl⟩
        exact ⟨device, first⟩
      · rintro ⟨other, otherFirst⟩
        rw [(describedBoard?_eq_some_iff boards string).mpr
          ⟨description, otherFirst⟩] at found
        cases found
        have texts := otherFirst.described
        rw [first.described] at texts
        exact ⟨rfl, Option.some.inj texts⟩

/-- A usable device with a description comes behind a first one. -/
theorem exists_firstDescribed
    (boards : ∀ device, 0 ∉ (hw.devices device).board)
    (string : 0 ∉ name)
    {device : Fin n}
    {description : CString}
    (usable : (hw.devices device).UsableAs username name)
    (described : (hw.devices device).description = some description) :
    ∃ first text,
      first ≤ device ∧
        FirstDescribed hw.devices username name first text := by
  cases found : describedBoard? hw username name with
  | none =>
      have skipped := find?_finRange_eq_none_iff.mp found device
      rw [← Bool.not_eq_true, nameAt, describes_iff (boards device) string,
        described] at skipped
      exact (skipped ⟨usable, rfl⟩).elim
  | some first =>
      obtain ⟨text, isFirst⟩ :=
        (describedBoard?_eq_some_iff boards string).mp found
      refine ⟨first, text, ?_, isFirst⟩
      apply Fin.not_lt.mp
      intro isBefore
      have undescribed := isFirst.first device isBefore usable
      rw [described] at undescribed
      cases undescribed

end Descriptions

/-! ## When the look-ups agree -/

/--
The first device with a name decides for those behind it.  If the user may use
it, the buffer of a line holds the name; otherwise the user may use no other
device of this name, or none is shown.  And if it is not described to the user,
then no other one is, or one with an empty description first.
-/
structure FirstDecides
    (devices : Fin n → Device)
    (username name : CString)
    (first : Fin n) :
    Prop where
  line :
    if deviceCheckAccess (devices first) (some username) then
      name.length < 80
    else
      80 ≤ name.length ∨
        ∀ device, ¬ (devices device).UsableAs username name
  description :
    (deviceCheckAccess (devices first) (some username) = true ∧
        (devices first).description.isSome = true) ∨
      ∀ device text,
        (devices device).UsableAs username name →
        (devices device).description = some text →
        text ≠ [] →
        ∃ earlier,
          earlier < device ∧
            (devices earlier).UsableAs username name ∧
            (devices earlier).description = some []

/-- There is one first device with a name. -/
theorem FirstNamed.unique
    {devices : Fin n → Device}
    {name : CString}
    {first other : Fin n}
    (isFirst : FirstNamed devices name first)
    (otherFirst : FirstNamed devices name other) :
    first = other := by
  apply Fin.le_antisymm
  · exact Fin.not_lt.mp fun before => isFirst.first other before otherFirst.named
  · exact Fin.not_lt.mp fun before => otherFirst.first first before isFirst.named

section Agreement

variable {hw : Hw n} {username name : CString}

theorem LookupsAgree.line_decided
    (boards : ∀ device, 0 ∉ (hw.devices device).board)
    (string : 0 ∉ name)
    (agree : LookupsAgree hw username name)
    {first : Fin n}
    (isFirst : FirstNamed hw.devices name first) :
    if deviceCheckAccess (hw.devices first) (some username) then
      name.length < 80
    else
      80 ≤ name.length ∨
        ∀ device, ¬ (hw.devices device).UsableAs username name := by
  have listed := agree.listed
  rw [shownInList_iff boards] at listed
  split
  · rename_i access
    exact (listed.mpr ⟨first,
      (accessibleBoard?_name boards string username first).mpr
        ⟨isFirst, access⟩⟩).2
  · rename_i denied
    rcases Nat.lt_or_ge name.length 80 with short | long
    · refine .inr fun device usable => ?_
      obtain ⟨selected, found⟩ := listed.mp ⟨⟨device, usable⟩, short⟩
      obtain ⟨selectedFirst, access⟩ :=
        (accessibleBoard?_name boards string username selected).mp found
      rw [selectedFirst.unique isFirst] at access
      exact denied access
    · exact .inl long

theorem LookupsAgree.description_decided
    (boards : ∀ device, 0 ∉ (hw.devices device).board)
    (string : 0 ∉ name)
    (agree : LookupsAgree hw username name)
    {first : Fin n}
    (isFirst : FirstNamed hw.devices name first) :
    (deviceCheckAccess (hw.devices first) (some username) = true ∧
        (hw.devices first).description.isSome = true) ∨
      ∀ device text,
        (hw.devices device).UsableAs username name →
        (hw.devices device).description = some text →
        text ≠ [] →
        ∃ earlier,
          earlier < device ∧
            (hw.devices earlier).UsableAs username name ∧
            (hw.devices earlier).description = some [] := by
  rw [Decidable.or_iff_not_imp_left]
  intro notTold device text usable described nonempty
  obtain ⟨answering, answer, before, answers⟩ :=
    exists_firstDescribed boards string usable described
  have empty : answer = [] := by
    apply Decidable.byContradiction
    intro something
    obtain ⟨selected, found, sameText⟩ :=
      agree.described answer something
        ((answeredWith_iff boards string something).mpr ⟨answering, answers⟩)
    obtain ⟨selectedFirst, access⟩ :=
      (accessibleBoard?_name boards string username selected).mp found
    rw [selectedFirst.unique isFirst] at access sameText
    exact notTold ⟨access, by rw [sameText]; rfl⟩
  subst empty
  have other : answering ≠ device := by
    rintro rfl
    rw [answers.described] at described
    exact nonempty (Option.some.inj described).symm
  have earlier : answering < device := by
    omega
  exact ⟨answering, earlier, answers.usable, answers.described⟩

theorem FirstDecides.lookupsAgree
    (boards : ∀ device, 0 ∉ (hw.devices device).board)
    (string : 0 ∉ name)
    (decides :
      ∀ first,
        FirstNamed hw.devices name first →
        FirstDecides hw.devices username name first) :
    LookupsAgree hw username name where
  listed := by
    rw [shownInList_iff boards]
    constructor
    · rintro ⟨⟨device, usable⟩, short⟩
      obtain ⟨first, isFirst⟩ := exists_firstNamed usable.1
      have line := (decides first isFirst).line
      split at line
      · rename_i access
        exact ⟨first, (accessibleBoard?_name boards string username first).mpr
          ⟨isFirst, access⟩⟩
      · rcases line with long | unusable
        · omega
        · exact (unusable device usable).elim
    · rintro ⟨device, found⟩
      obtain ⟨isFirst, access⟩ :=
        (accessibleBoard?_name boards string username device).mp found
      have line := (decides device isFirst).line
      rw [if_pos access] at line
      exact ⟨⟨device, isFirst.named, access⟩, line⟩
  described := by
    intro description nonempty answered
    obtain ⟨device, answers⟩ :=
      (answeredWith_iff boards string nonempty).mp answered
    obtain ⟨first, isFirst⟩ := exists_firstNamed answers.usable.1
    rcases (decides first isFirst).description with ⟨access, told⟩ | silent
    · -- The first device is described to the user, so it is the one.
      have same : device = first := by
        apply Fin.le_antisymm
        · apply Fin.not_lt.mp
          intro before
          rw [answers.first first before ⟨isFirst.named, access⟩] at told
          cases told
        · exact Fin.not_lt.mp fun before =>
            isFirst.first device before answers.usable.1
      rw [same] at answers
      exact ⟨first,
        (accessibleBoard?_name boards string username first).mpr
          ⟨isFirst, access⟩,
        answers.described⟩
    · obtain ⟨earlier, before, usable, empty⟩ :=
        silent device description answers.usable answers.described nonempty
      rw [answers.first earlier before usable] at empty
      cases empty

/--
The three look-ups of a name agree exactly when the first device with that name
decides for all of them.
-/
theorem lookupsAgree_iff
    (boards : ∀ device, 0 ∉ (hw.devices device).board)
    (string : 0 ∉ name) :
    LookupsAgree hw username name ↔
      ∀ first,
        FirstNamed hw.devices name first →
        FirstDecides hw.devices username name first :=
  ⟨fun agree _ isFirst =>
    ⟨agree.line_decided boards string isFirst,
      agree.description_decided boards string isFirst⟩,
    FirstDecides.lookupsAgree boards string⟩

end Agreement

/-- A board that nobody else uses is looked up alike. -/
theorem benchLookups_agree :
    LookupsAgree (Hw.initial fun _ : Fin 1 => ftdiBoard) (ascii "user")
      (ascii "db410c") := by
  refine (lookupsAgree_iff (by decide) (by decide)).mpr ?_
  intro first _
  refine ⟨?_, .inr ?_⟩
  · exact show ftdiBoard.board.length < 80 by decide
  · intro device text _ described
    cases described

/-- Two boards of one name, of which the user may only use the second. -/
def sharedName : Fin 2 → Device
  | 0 => { ftdiBoard with users := some [ascii "other"] }
  | 1 => ftdiBoard

/-- The name is listed, but selecting it finds nothing. -/
theorem sharedName_disagree :
    ¬ LookupsAgree (Hw.initial sharedName) (ascii "user")
        (ascii "db410c") := by
  intro agree
  have first : FirstNamed sharedName (ascii "db410c") 0 :=
    ⟨by decide, by decide⟩
  have line :=
    agree.line_decided (by decide) (by decide) first
  rw [if_neg (by decide)] at line
  rcases line with long | unusable
  · exact absurd long (by decide)
  · exact unusable 1 ⟨by decide, by decide⟩

end Cdba

/-
**Lists of byte strings are exact, apart from the lengths that overflow.**

A list is read item by item from its body. Each item is a header with its payload, so that the items
that are read are the ones that were written, and the only bytes at which a reader panics are those in
which the next header is overlong.

* `rlpItems_eq_ok`, `rlpListItems_eq_ok` — what is read is what was written.
* `OverlongList`, `rlpListItems_panics_iff` — the bytes at which a list panics.
* `OverlongSigned`, `verifyEvmSigned_panics_iff` — the same for two transactions.
* `rlp_exact_iff` — the round trip, its converse, and where no reader panics.
-/

import Semaprax.EconomicAgent.RlpCodec

namespace Semaprax.EconomicAgent

open Library

/-- A payload with the header that is written for it, in memory. -/
def Item (item : List UInt8) : Prop :=
  ∃ list payload, item = rlpLead list payload ++ payload ∧ item.length ≤ maxUsize

variable {item value rest body bytes unsigned signed : List UInt8} {fuel : Nat}
variable {items : List (List UInt8)} {panic : Panic} {A : Type}

theorem lengthHeader_ne_nil (short long length : Nat) : lengthHeader short long length ≠ [] := by
  unfold lengthHeader
  split_ifs <;> exact List.cons_ne_nil _ _

theorem Item.ne_nil (item' : Item item) : item ≠ [] := by
  obtain ⟨list, payload, rfl, -⟩ := item'
  intro none'
  obtain ⟨noLead, rfl⟩ := List.append_eq_nil_iff.mp none'
  unfold rlpLead at noLead
  rw [if_neg (fun low => absurd low.1 (by decide) : ¬(([] : List UInt8).length = 1 ∧ _))] at noLead
  split_ifs at noLead <;> exact lengthHeader_ne_nil _ _ _ noLead

theorem item_rlpBytes (fits : (rlpBytes value).length ≤ maxUsize) :
    Item (rlpBytes value) := ⟨false, value, rlpBytes_eq value, fits⟩

theorem rlpItems_item (item' : Item item) (fuel : Nat) : rlpItems (fuel + 1) (item ++ rest) =
      (rlpItems fuel rest >>= fun items => pure (item :: items)) := by
  have some' : item ++ rest ≠ [] := List.append_ne_nil_of_left_ne_nil item'.ne_nil rest
  obtain ⟨list, payload, rfl, fits⟩ := item'
  rw [List.length_append] at fits
  have total : checked ((rlpLead list payload).length + payload.length) =
      .ok (rlpLead list payload ++ payload).length := by
    rw [checked, if_pos fits, List.length_append]
  have here : slice (rlpLead list payload ++ payload ++ rest) 0
      (rlpLead list payload ++ payload).length = .ok (rlpLead list payload ++ payload) :=
    slice_eq_ok (Nat.zero_le _) (by simp) (by rw [List.take_left, List.drop_zero])
  have behind : slice (rlpLead list payload ++ payload ++ rest)
      (rlpLead list payload ++ payload).length (rlpLead list payload ++ payload ++ rest).length =
        .ok rest :=
    slice_eq_ok (by simp) le_rfl (by rw [List.take_length, List.drop_left])
  rw [rlpItems, if_neg some', rlpHeader_lead rest fits, ok_bind]
  show (checked _ >>= _) = _
  rw [total, ok_bind, here, ok_bind, behind, ok_bind]

theorem body_cases (some' : body ≠ []) (fuel : Nat) : rlpItems (fuel + 1) body = .error .refused ∨
    (Overlong body ∧ rlpItems (fuel + 1) body = .error (.panicked .overflow)) ∨
    ∃ item rest, body = item ++ rest ∧ Item item := by
  cases rlpHeader_outcome body with
  | refused result =>
    left
    rw [rlpItems, if_neg some', result]
    rfl
  | overlong long result =>
    right
    left
    refine ⟨long, ?_⟩
    rw [rlpItems, if_neg some', result]
    rfl
  | headed list payload rest written =>
    right
    right
    exact ⟨rlpLead list payload ++ payload, rest, written.1, list, payload, rfl,
      List.length_append ▸ written.2⟩

theorem shorter (item' : Item item)
    (enough : (item ++ rest).length ≤ fuel + 1) : rest.length ≤ fuel := by
  have positive := List.length_pos_iff.mpr item'.ne_nil
  rw [List.length_append] at enough
  omega

/-- **The items of a body** are the ones it consists of. -/
theorem rlpItems_eq_ok (enough : body.length ≤ fuel) :
    rlpItems fuel body = .ok items ↔ body = items.flatten ∧ ∀ item ∈ items, Item item := by
  constructor
  · induction fuel generalizing body items with
    | zero =>
      intro read
      obtain rfl := Except.ok.inj read
      exact ⟨List.eq_nil_of_length_eq_zero (Nat.le_zero.mp enough), by simp⟩
    | succ fuel ih =>
      intro read
      by_cases none' : body = []
      · rw [rlpItems, if_pos none'] at read
        obtain rfl := Except.ok.inj read
        exact ⟨none', by simp⟩
      rcases body_cases none' fuel with stopped | ⟨_, stopped⟩ | ⟨item, rest, rfl, item'⟩
      · exact nomatch stopped.symm.trans read
      · exact nomatch stopped.symm.trans read
      · rw [rlpItems_item item' fuel] at read
        obtain ⟨more, readRest, same⟩ := bind_eq_ok.mp read
        obtain rfl := Except.ok.inj same
        obtain ⟨rfl, all⟩ := ih (shorter item' enough) readRest
        exact ⟨rfl, List.forall_mem_cons.mpr ⟨item', all⟩⟩
  · rintro ⟨rfl, all⟩
    induction items generalizing fuel with
    | nil =>
      cases fuel with
      | zero | succ fuel => rfl
    | cons item items ih =>
      obtain ⟨item', all⟩ := List.forall_mem_cons.mp all
      rw [List.flatten_cons] at enough ⊢
      cases fuel with
      | zero => exact absurd (List.append_eq_nil_iff.mp
          (List.eq_nil_of_length_eq_zero (Nat.le_zero.mp enough))).1 item'.ne_nil
      | succ fuel =>
        rw [rlpItems_item item' fuel, ih all (shorter item' enough)]
        rfl

/-- **The bodies at which the reader panics** have an overlong header behind some items. -/
theorem rlpItems_panics_iff (enough : body.length ≤ fuel) :
    rlpItems fuel body = .error (.panicked panic) ↔ panic = .overflow ∧
      ∃ (items : List (List UInt8)) (rest : List UInt8), body = items.flatten ++ rest ∧
        (∀ item ∈ items, Item item) ∧ Overlong rest := by
  constructor
  · induction fuel generalizing body with
    | zero => exact (nomatch ·)
    | succ fuel ih =>
      intro panics
      by_cases none' : body = []
      · rw [rlpItems, if_pos none'] at panics
        exact nomatch panics
      rcases body_cases none' fuel with stopped | ⟨long, stopped⟩ | ⟨item, rest, rfl, item'⟩
      · exact nomatch stopped.symm.trans panics
      · have same := stopped.symm.trans panics
        exact ⟨by simpa using same.symm, [], body, rfl, by simp, long⟩
      · rw [rlpItems_item item' fuel] at panics
        rcases bind_eq_error.mp panics with early | ⟨_, _, late⟩
        · obtain ⟨which, items, rest', rfl, all, long⟩ := ih (shorter item' enough) early
          exact ⟨which, item :: items, rest', by simp, List.forall_mem_cons.mpr ⟨item', all⟩,
            long⟩
        · exact nomatch late
  · rintro ⟨rfl, items, rest, rfl, all, long⟩
    induction items generalizing fuel with
    | nil =>
      have panics := rlpHeader_panics_iff.mpr ⟨rfl, long⟩
      obtain ⟨lead, lengthBytes, behind, rfl, -⟩ := long
      cases fuel with
      | zero => exact absurd enough (by simp)
      | succ fuel =>
        rw [List.flatten_nil, List.nil_append, rlpItems, if_neg (List.cons_ne_nil _ _), panics]
        rfl
    | cons item items ih =>
      obtain ⟨item', all⟩ := List.forall_mem_cons.mp all
      rw [List.flatten_cons, List.append_assoc] at enough ⊢
      cases fuel with
      | zero => exact absurd (List.append_eq_nil_iff.mp
          (List.eq_nil_of_length_eq_zero (Nat.le_zero.mp enough))).1 item'.ne_nil
      | succ fuel =>
        rw [rlpItems_item item' fuel, ih (shorter item' enough) all]
        rfl

/-- A list in memory that a writer could have written. -/
def WrittenList (bytes : List UInt8) (items : List (List UInt8)) : Prop :=
  bytes = rlpList items ∧ (∀ item ∈ items, Item item) ∧ bytes.length ≤ maxUsize

def OverlongList (bytes : List UInt8) : Prop :=
  Overlong bytes ∨ ∃ items rest, bytes = rlpList (items ++ [rest]) ∧ (∀ item ∈ items, Item item) ∧
    Overlong rest ∧ bytes.length ≤ maxUsize

/-- A list that fills its bytes is read by reading its body. -/
theorem rlpListItems_lead {payload : List UInt8}
    (fits : (rlpLead true payload ++ payload).length ≤ maxUsize) :
    rlpListItems (rlpLead true payload ++ payload) = rlpItems payload.length payload := by
  have read := rlpHeader_lead [] (List.length_append ▸ fits)
  rw [List.append_nil] at read
  have total : add (rlpLead true payload).length payload.length =
      .ok (rlpLead true payload ++ payload).length :=
    add_eq_ok.mpr ⟨List.length_append.symm, fits⟩
  have body : slice (rlpLead true payload ++ payload) (rlpLead true payload).length
      (rlpLead true payload ++ payload).length = .ok payload :=
    slice_eq_ok (by simp) le_rfl (by rw [List.take_length, List.drop_left])
  rw [rlpListItems, read, ok_bind]
  show (refuseIf (true = false) >>= fun _ => add _ _ >>= _) = _
  rw [refuseIf_bind, if_neg (by decide), total, ok_bind, refuseIf_bind, if_neg (not_not.mpr rfl),
    body, ok_bind]

theorem list_cases (bytes : List UInt8) : rlpListItems bytes = .error .refused ∨
    (Overlong bytes ∧ rlpListItems bytes = .error (.panicked .overflow)) ∨
    ∃ payload, bytes = rlpLead true payload ++ payload ∧ bytes.length ≤ maxUsize := by
  cases rlpHeader_outcome bytes with
  | refused result =>
    left
    rw [rlpListItems, result]
    rfl
  | overlong long result =>
    right
    left
    refine ⟨long, ?_⟩
    rw [rlpListItems, result]
    rfl
  | headed list payload rest written =>
    obtain ⟨rfl, fits⟩ := written
    cases list with
    | false =>
      left
      rw [rlpListItems, rlpHeader_lead rest fits]
      rfl
    | true =>
      by_cases whole : rest = []
      · right
        right
        subst whole
        rw [List.append_nil]
        exact ⟨payload, rfl, List.length_append ▸ fits⟩
      · left
        rw [rlpListItems, rlpHeader_lead rest fits, ok_bind]
        show (refuseIf (true = false) >>= fun _ => add _ _ >>= _) = _
        rw [refuseIf_bind, if_neg (by decide), add_eq_ok.mpr ⟨rfl, fits⟩, ok_bind,
          refuseIf_bind, if_pos]
        rw [List.length_append, List.length_append]
        have positive := List.length_pos_iff.mpr whole
        omega

/-- **A list is read as it was written**, and nothing else is. -/
theorem rlpListItems_eq_ok : rlpListItems bytes = .ok items ↔ WrittenList bytes items := by
  constructor
  · intro read
    rcases list_cases bytes with stopped | ⟨_, stopped⟩ | ⟨payload, rfl, fits⟩
    · exact nomatch stopped.symm.trans read
    · exact nomatch stopped.symm.trans read
    · rw [rlpListItems_lead fits] at read
      obtain ⟨rfl, all⟩ := (rlpItems_eq_ok le_rfl).mp read
      exact ⟨rfl, all, fits⟩
  · rintro ⟨rfl, all, fits⟩
    rw [rlpList_eq] at fits ⊢
    rw [rlpListItems_lead fits]
    exact (rlpItems_eq_ok le_rfl).mpr ⟨rfl, all⟩

/-- **The lists at which the reader panics.** -/
theorem rlpListItems_panics_iff :
    rlpListItems bytes = .error (.panicked panic) ↔ panic = .overflow ∧ OverlongList bytes := by
  have flatten : ∀ (items : List (List UInt8)) (rest : List UInt8),
      (items ++ [rest]).flatten = items.flatten ++ rest := fun items rest => by simp
  constructor
  · intro panics
    rcases list_cases bytes with stopped | ⟨long, stopped⟩ | ⟨payload, rfl, fits⟩
    · exact nomatch stopped.symm.trans panics
    · have same := stopped.symm.trans panics
      exact ⟨by simpa using same.symm, Or.inl long⟩
    · rw [rlpListItems_lead fits] at panics
      obtain ⟨which, items, rest, rfl, all, long⟩ := (rlpItems_panics_iff le_rfl).mp panics
      refine ⟨which, Or.inr ⟨items, rest, ?_, all, long, fits⟩⟩
      rw [rlpList_eq, flatten]
  · rintro ⟨rfl, long | ⟨items, rest, rfl, all, long, fits⟩⟩
    · rw [rlpListItems, rlpHeader_panics_iff.mpr ⟨rfl, long⟩]
      rfl
    · rw [rlpList_eq, flatten] at fits ⊢
      rw [rlpListItems_lead fits]
      exact (rlpItems_panics_iff le_rfl).mpr ⟨rfl, items, rest, rfl, all, long⟩

/-- **A string is read as it was written.** -/
theorem rlpScalar_rlpBytes (fits : (rlpBytes value).length ≤ maxUsize) :
    rlpScalar (rlpBytes value) = .ok value := by
  rw [rlpBytes_eq] at fits ⊢
  have read := rlpHeader_lead [] (List.length_append ▸ fits)
  rw [List.append_nil] at read
  have total : add (rlpLead false value).length value.length =
      .ok (rlpLead false value ++ value).length :=
    add_eq_ok.mpr ⟨List.length_append.symm, fits⟩
  have behind : slice (rlpLead false value ++ value) (rlpLead false value).length
      (rlpLead false value ++ value).length = .ok value :=
    slice_eq_ok (by simp) le_rfl (by rw [List.take_length, List.drop_left])
  rw [rlpScalar, read, ok_bind]
  show (isWholeString false _ _ _ >>= _) = _
  rw [isWholeString, if_neg (by decide), total, ok_bind]
  show (slice _ _ _ >>= _) = _
  rw [behind, ok_bind, refuseIf_bind, if_neg (by simp)]
  rfl

/-- A reader that does not panic. -/
def Calm {A : Type} (result : Except Stop A) : Prop := ∀ panic, result ≠ .error (.panicked panic)

theorem calm_refuseIf {condition : Prop} [Decidable condition] : Calm (refuseIf condition) := by
  intro panic panics
  unfold refuseIf at panics
  split_ifs at panics
  cases panics

theorem Calm.bind {A B : Type} {first : Except Stop A} {rest : A → Except Stop B}
    (calm : Calm first) (after : ∀ value, first = .ok value → Calm (rest value)) :
    Calm (first >>= rest) := by
  intro panic panics
  rcases bind_eq_error.mp panics with early | ⟨value, evaluated, late⟩
  · exact calm panic early
  · exact after value evaluated panic late

theorem calm_ok (value : A) : Calm (.ok value) := by
  intro panic panics
  cases panics

/-- The payload of an item is behind its header, so that no slice of it is out of range. -/
theorem calm_rlpScalar (item' : Item item) : Calm (rlpScalar item) := by
  obtain ⟨list, payload, rfl, fits⟩ := item'
  cases list with
  | false =>
    rw [← rlpBytes_eq] at fits ⊢
    rw [rlpScalar_rlpBytes fits]
    exact calm_ok _
  | true =>
    have read := rlpHeader_lead [] (List.length_append ▸ fits)
    rw [List.append_nil] at read
    have behind : slice (rlpLead true payload ++ payload) (rlpLead true payload).length
        (rlpLead true payload ++ payload).length = .ok payload :=
      slice_eq_ok (by simp) le_rfl (by rw [List.take_length, List.drop_left])
    rw [rlpScalar, read, ok_bind]
    show Calm (slice _ _ _ >>= _)
    rw [behind, ok_bind]
    exact calm_refuseIf.bind fun _ _ => calm_ok _

theorem index_of_mem {A : Type} {items : List A} {place : Nat} (inside : place < items.length) :
    ∃ item ∈ items, index items place = .ok item := by
  refine ⟨items[place], List.getElem_mem inside, ?_⟩
  rw [index, List.getElem?_eq_getElem inside]

/-- Once both lists are read, nothing panics. -/
theorem calm_of_lists {unsignedItems signedItems : List (List UInt8)}
    (all : ∀ item ∈ signedItems, Item item) :
    Calm (do
      refuseIf (unsignedItems.length ≠ 9 ∨ signedItems.length ≠ 12)
      let front ← slice signedItems 0 9
      refuseIf ((unsignedItems.zip front).any fun (a, b) => a ≠ b)
      let parity ← rlpScalar (← index signedItems 9)
      refuseIf (parity ≠ [] ∧ parity ≠ [1])
      let r ← rlpScalar (← index signedItems 10)
      let s ← rlpScalar (← index signedItems 11)
      refuseIf ((validSecpScalar r false && validSecpScalar s true) = false)) := by
  refine calm_refuseIf.bind fun _ counted => ?_
  have twelve : signedItems.length = 12 :=
    not_not.mp (not_or.mp (refuseIf_eq_ok.mp counted)).2
  rw [slice_eq_ok (Nat.zero_le _) (by omega) rfl, ok_bind]
  refine calm_refuseIf.bind fun _ _ => ?_
  obtain ⟨parity, isParity, here⟩ := @index_of_mem _ signedItems 9 (by omega)
  rw [here, ok_bind]
  refine (calm_rlpScalar (all parity isParity)).bind fun _ _ => calm_refuseIf.bind fun _ _ => ?_
  obtain ⟨r, isR, here⟩ := @index_of_mem _ signedItems 10 (by omega)
  rw [here, ok_bind]
  refine (calm_rlpScalar (all r isR)).bind fun _ _ => ?_
  obtain ⟨s, isS, here⟩ := @index_of_mem _ signedItems 11 (by omega)
  rw [here, ok_bind]
  exact (calm_rlpScalar (all s isS)).bind fun _ _ => calm_refuseIf

/-- The pairs of transactions of which a list is overlong. The signed one is only read when the
unsigned one is a list. -/
def OverlongSigned (unsigned signed : List UInt8) : Prop :=
  ∃ unsignedList signedList, unsigned = 2 :: unsignedList ∧ signed = 2 :: signedList ∧
    (OverlongList unsignedList ∨
      (∃ items, WrittenList unsignedList items) ∧ OverlongList signedList)

theorem head?_eq_two (first : bytes.head? = some 2) : ∃ rest, bytes = 2 :: rest := by
  cases bytes with
  | nil => exact nomatch first
  | cons byte rest =>
    obtain rfl := Option.some.inj first
    exact ⟨rest, rfl⟩

theorem slice_tail (item : A) (items : List A) :
    slice (item :: items) 1 (item :: items).length = .ok items :=
  slice_eq_ok (by simp) le_rfl (by rw [List.take_length]; rfl)

/-- **The transactions at which the comparison panics.** -/
theorem checkEvmSigned_panics_iff : checkEvmSigned unsigned signed = .error (.panicked panic) ↔
      panic = .overflow ∧ OverlongSigned unsigned signed := by
  by_cases tagged : unsigned.head? ≠ some 2 ∨ signed.head? ≠ some 2
  · have refused : checkEvmSigned unsigned signed = .error .refused := by
      rw [checkEvmSigned, refuseIf_bind, if_pos tagged]
    rw [refused]
    constructor
    · exact (nomatch ·)
    · rintro ⟨_, unsignedList, signedList, rfl, rfl, -⟩
      exact absurd tagged (by simp)
  obtain ⟨first, second⟩ := not_or.mp tagged
  obtain ⟨unsignedList, rfl⟩ := head?_eq_two (not_not.mp first)
  obtain ⟨signedList, rfl⟩ := head?_eq_two (not_not.mp second)
  rw [checkEvmSigned, refuseIf_bind, if_neg tagged, slice_tail, ok_bind, slice_tail]
  constructor
  · intro panics
    rcases bind_eq_error.mp panics with early | ⟨unsignedItems, readUnsigned, panics⟩
    · obtain ⟨which, long⟩ := rlpListItems_panics_iff.mp early
      exact ⟨which, unsignedList, signedList, rfl, rfl, Or.inl long⟩
    rw [ok_bind] at panics
    rcases bind_eq_error.mp panics with early | ⟨signedItems, readSigned, late⟩
    · obtain ⟨which, long⟩ := rlpListItems_panics_iff.mp early
      exact ⟨which, unsignedList, signedList, rfl, rfl,
        Or.inr ⟨⟨unsignedItems, rlpListItems_eq_ok.mp readUnsigned⟩, long⟩⟩
    · exact absurd late (calm_of_lists (rlpListItems_eq_ok.mp readSigned).2.1 panic)
  · rintro ⟨rfl, unsignedList', signedList', same, same', long⟩
    obtain rfl := (List.cons.inj same).2
    obtain rfl := (List.cons.inj same').2
    rcases long with long | ⟨⟨items, written⟩, long⟩
    · rw [rlpListItems_panics_iff.mpr ⟨rfl, long⟩]
      rfl
    · rw [rlpListItems_eq_ok.mpr written, ok_bind, ok_bind, rlpListItems_panics_iff.mpr ⟨rfl, long⟩]
      rfl

theorem verifyEvmSigned_panics_iff : verifyEvmSigned unsigned signed = .error panic ↔
      panic = .overflow ∧ OverlongSigned unsigned signed := by
  rw [← checkEvmSigned_panics_iff, verifyEvmSigned]
  cases checkEvmSigned unsigned signed with
  | ok _ => simp
  | error stop => cases stop <;> simp

theorem calm_iff {result : Except Stop A} {Bad : Prop}
    (panics : ∀ panic, result = .error (.panicked panic) ↔ panic = .overflow ∧ Bad) :
    Calm result ↔ ¬Bad := by
  constructor
  · exact fun calm bad => calm .overflow ((panics .overflow).mpr ⟨rfl, bad⟩)
  · exact fun fine panic stopped => fine ((panics panic).mp stopped).2

theorem fits_of_mem (mem : item ∈ items)
    (fits : (rlpList items).length ≤ maxUsize) : item.length ≤ maxUsize := by
  have inside : item.length ≤ items.flatten.length :=
    (List.sublist_flatten_of_mem mem).length_le
  rw [rlpList_eq, List.length_append] at fits
  omega

/-- **The codec is exact, and it panics exactly at an overlong header.** Strings that fit into memory
come back from what is written for them, what is read of any bytes is what would write them, and
each reader finishes just when none of the headers that it comes to is overlong. -/
theorem rlp_exact_iff (strings : List (List UInt8)) (bytes unsigned signed : List UInt8)
    (fits : (rlpList (strings.map rlpBytes)).length ≤ maxUsize) :
    (rlpListItems (rlpList (strings.map rlpBytes)) = .ok (strings.map rlpBytes) ∧
      ∀ string ∈ strings, rlpScalar (rlpBytes string) = .ok string) ∧
    (∀ items, rlpListItems bytes = .ok items → bytes = rlpList items) ∧
    (Calm (rlpHeader bytes) ↔ ¬Overlong bytes) ∧
    (Calm (rlpListItems bytes) ↔ ¬OverlongList bytes) ∧
    ((∃ verified, verifyEvmSigned unsigned signed = .ok verified) ↔
      ¬OverlongSigned unsigned signed) := by
  have small : ∀ string ∈ strings, (rlpBytes string).length ≤ maxUsize :=
    fun string mem => fits_of_mem (List.mem_map_of_mem mem) fits
  refine ⟨⟨rlpListItems_eq_ok.mpr ⟨rfl, ?_, fits⟩, ?_⟩, ?_, ?_, ?_, ?_⟩
  · intro item mem
    obtain ⟨string, mem', rfl⟩ := List.mem_map.mp mem
    exact item_rlpBytes (small string mem')
  · exact fun string mem => rlpScalar_rlpBytes (small string mem)
  · exact fun items read => (rlpListItems_eq_ok.mp read).1
  · exact calm_iff fun _ => rlpHeader_panics_iff
  · exact calm_iff fun _ => rlpListItems_panics_iff
  · constructor
    · rintro ⟨verified, ran⟩ bad
      exact nomatch ran.symm.trans (verifyEvmSigned_panics_iff.mpr ⟨rfl, bad⟩)
    · intro fine
      cases ran : verifyEvmSigned unsigned signed with
      | ok verified => exact ⟨verified, rfl⟩
      | error panic => exact absurd (verifyEvmSigned_panics_iff.mp ran).2 fine

/-- One low byte and one empty string, with the transactions of no list. -/
theorem rlp_exact_iff_low : (rlpListItems [0xc2, 0x7f, 0x80] = .ok [[0x7f], [0x80]] ∧
    ∀ string ∈ [[0x7f], []], rlpScalar (rlpBytes string) = .ok string) ∧
    (∀ items, rlpListItems [0xc1, 0x81] = .ok items → [0xc1, 0x81] = rlpList items) ∧
    (Calm (rlpHeader [0xc1, 0x81]) ↔ ¬Overlong [0xc1, 0x81]) ∧
    (Calm (rlpListItems [0xc1, 0x81]) ↔ ¬OverlongList [0xc1, 0x81]) ∧
    ((∃ verified, verifyEvmSigned [2] [2] = .ok verified) ↔ ¬OverlongSigned [2] [2]) :=
  rlp_exact_iff [[0x7f], []] [0xc1, 0x81] [2] [2] (by decide +kernel)

/-- The length `2 ^ 64 - 1` of a string overflows the sum with its header, and so does that of a list
in a signed transaction. -/
theorem rlp_overflows : rlpHeader [0xbf, 0xff, 0xff, 0xff, 0xff, 0xff, 0xff, 0xff, 0xff] =
      .error (.panicked .overflow) ∧
    rlpListItems [0xff, 0xff, 0xff, 0xff, 0xff, 0xff, 0xff, 0xff, 0xff] =
      .error (.panicked .overflow) ∧
    verifyEvmSigned [2, 0xc0] [2, 0xff, 0xff, 0xff, 0xff, 0xff, 0xff, 0xff, 0xff, 0xff] =
      .error .overflow := by
  decide +kernel

end Semaprax.EconomicAgent

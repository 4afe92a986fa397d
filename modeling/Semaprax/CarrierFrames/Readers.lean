/-
**Reading carrier bytes** (`public_generic_abi.rs`, `public_generic_abi/carrier/frame.rs`).

Each reader takes off what its writer puts in front and never panics, and it finds the values whose
sizes are within its bounds.

* `readFrame_eq_some` — what a field is made of.
* `takes_readText`, `finds_readText` and the like — the fields of a frame.
* `readLeaf_spec`, `finds_readLeaf` — one leaf; `readLeaves_spec`, `finds_readLeaves` — all of them.
-/

import Semaprax.CarrierFrames.Model

namespace Semaprax.CarrierFrames

open Library
open CarrierCall (Diagnostic Direction carrierSchema)

variable {field : Bytes} {start number : Nat}

theorem checkedAdd_eq_some {left right sum : Nat} :
    checkedAdd left right = some sum ↔ left + right = sum ∧ sum ≤ maxUsize := by
  unfold checkedAdd
  split_ifs with fits
  · constructor
    · intro same
      obtain rfl := Option.some.inj same
      exact ⟨rfl, fits⟩
    · rintro ⟨rfl, _⟩
      rfl
  · constructor
    · intro same
      cases same
    · rintro ⟨rfl, fits'⟩
      exact absurd fits' fits

theorem part_eq_some {bytes : Bytes} {stop : Nat} (found : part bytes start stop = some field) :
    stop = start + field.length ∧ stop ≤ bytes.length ∧
      bytes.drop start = field ++ bytes.drop stop := by
  unfold part at found
  split_ifs at found with inside
  obtain rfl := Option.some.inj found
  refine ⟨?_, inside.2, ?_⟩
  · rw [List.length_drop, List.length_take]
    omega
  · conv_lhs => rw [← List.take_append_drop stop bytes]
    rw [List.drop_append_of_le_length]
    rw [List.length_take]
    omega

theorem part_stands {bytes rest : Bytes} (inside : start ≤ bytes.length)
    (stands : bytes.drop start = field ++ rest) :
    part bytes start (start + field.length) = some field := by
  have lengths := congrArg List.length stands
  rw [List.length_append, List.length_drop] at lengths
  unfold part
  rw [if_pos ⟨Nat.le_add_right _ _, by omega⟩, List.drop_take, stands, Nat.add_sub_cancel_left,
    List.take_left]

theorem fromLeBytes_eq_some {bytes : Bytes} (read : fromLeBytes bytes = some number) :
    bytes = leBytes 8 number ∧ number < 256 ^ 8 := by
  unfold fromLeBytes at read
  split_ifs at read with eight
  obtain rfl := Option.some.inj read
  refine ⟨?_, ?_⟩
  · rw [← eight, leBytes_leValue]
  · rw [← eight]
    exact leValue_lt bytes

theorem fromLeBytes_leBytes (small : number < 256 ^ 8) :
    fromLeBytes (leBytes 8 number) = some number := by
  unfold fromLeBytes
  rw [if_pos (length_leBytes 8 number), leValue_leBytes, Nat.mod_eq_of_lt small]

section Readers

variable {bytes : Bytes}

variable {offset maxLen : Nat} {field : Bytes} {text : String} {gathered : Gathered}

theorem maxUsize_lt : maxUsize < 256 ^ 8 := by decide

/-- **A field** stands behind its length, and is not too long. -/
theorem readFrame_eq_some {next : Nat}
    (found : readFrame bytes offset maxLen = some (field, next)) :
    next ≤ bytes.length ∧ bytes.drop offset = framed field ++ bytes.drop next ∧
      field.length ≤ maxLen := by
  unfold readFrame at found
  obtain ⟨headerEnd, added, found⟩ := Option.bind_eq_some_iff.mp found
  obtain ⟨header, headed, found⟩ := Option.bind_eq_some_iff.mp found
  obtain ⟨len, read, found⟩ := Option.bind_eq_some_iff.mp found
  split_ifs at found with long
  obtain ⟨fieldEnd, added', found⟩ := Option.bind_eq_some_iff.mp found
  obtain ⟨field', fielded, same⟩ := Option.bind_eq_some_iff.mp found
  obtain ⟨rfl, rfl⟩ := Prod.mk.inj (Option.some.inj same)
  obtain ⟨rfl, _⟩ := checkedAdd_eq_some.mp added
  obtain ⟨rfl, _⟩ := checkedAdd_eq_some.mp added'
  obtain ⟨_, _, split⟩ := part_eq_some headed
  obtain ⟨length, inside, split'⟩ := part_eq_some fielded
  obtain ⟨rfl, _⟩ := fromLeBytes_eq_some read
  have length : len = field'.length := by omega
  refine ⟨inside, ?_, by omega⟩
  rw [split, split', framed, length, List.append_assoc]

theorem readFrame_framed (small : bytes.length ≤ maxUsize)
    {rest : Bytes} (inside : offset ≤ bytes.length) (short : field.length ≤ maxLen)
    (stands : bytes.drop offset = framed field ++ rest) :
    readFrame bytes offset maxLen = some (field, offset + (framed field).length) := by
  have lengths := congrArg List.length stands
  rw [List.length_append, List.length_drop, length_framed] at lengths
  rw [framed, List.append_assoc] at stands
  have behind := drop_behind stands
  rw [length_leBytes] at behind
  have headed : part bytes offset (offset + 8) = some (leBytes 8 field.length) := by
    have found := part_stands inside stands
    rwa [length_leBytes] at found
  have fielded : part bytes (offset + 8) (offset + 8 + field.length) = some field :=
    part_stands (by omega) behind
  have limit := maxUsize_lt
  unfold readFrame
  simp only [Option.bind_eq_bind]
  rw [checkedAdd_eq_some.mpr ⟨rfl, by omega⟩, Option.bind_some, headed, Option.bind_some,
    fromLeBytes_leBytes (by omega), Option.bind_some, if_neg (by omega),
    checkedAdd_eq_some.mpr ⟨rfl, by omega⟩, Option.bind_some, fielded, Option.bind_some,
    length_framed, Nat.add_assoc]

/-- A reader may be refused, but it does not panic. -/
def Calm (fault : Fault) : Prop := fault ≠ .panicked

theorem calm_refused {diagnostic : Diagnostic} : Calm (.refused diagnostic) := by simp [Calm]

theorem takes_readText (maxLen : Nat) (truncated broken : Diagnostic) :
    Takes bytes (readText bytes maxLen truncated broken) (fun text => framed (encodeText text))
      Calm := by
  intro offset _
  unfold readText refused
  rw [wp_bind, wp_get]
  refine ofOption_goes (fun _ => calm_refused) fun found read => ?_
  rw [wp_bind, wp_set, wp_ofOption]
  refine ⟨fun _ => calm_refused, fun text decoded => ?_⟩
  obtain ⟨inside, split, _⟩ := readFrame_eq_some read
  refine ⟨inside, ?_⟩
  show _ = framed (encodeText text) ++ _
  rw [encodeText_of_decodeText decoded]
  exact split

section Small

variable (small : bytes.length ≤ maxUsize)

include small

theorem finds_readText {truncated broken : Diagnostic} (short : (encodeText text).length ≤ maxLen) :
    Finds bytes (readText bytes maxLen truncated broken) (framed (encodeText text)) text := by
  intro offset rest stands
  have inside : offset ≤ bytes.length := by
    have lengths := congrArg List.length stands
    rw [List.length_append, List.length_drop, length_framed] at lengths
    omega
  unfold readText refused
  rw [run_get, run_ofOption (readFrame_framed small inside short stands), run_set,
    decodeText_encodeText]
  rfl

omit small in
theorem takes_readStringField (name : String) :
    Takes bytes (readStringField bytes name) (fun text => framed (encodeText text)) Calm :=
  takes_readText _ _ _

theorem finds_readStringField (name : String)
    (short : (encodeText text).length ≤ maxFrameFieldBytes) :
    Finds bytes (readStringField bytes name) (framed (encodeText text)) text :=
  finds_readText small short

omit small in
theorem takes_readU64Field (name : String) :
    Takes bytes (readU64Field bytes name) (leBytes 8) Calm := by
  intro offset _
  unfold readU64Field refused
  rw [wp_bind, wp_get]
  refine ofOption_goes (fun _ => calm_refused) fun stop added => ?_
  refine ofOption_goes (fun _ => calm_refused) fun field found => ?_
  obtain ⟨rfl, _⟩ := checkedAdd_eq_some.mp added
  obtain ⟨length, inside, split⟩ := part_eq_some found
  refine ofOption_goes (fun missing => ?_) fun value read => ?_
  · unfold fromLeBytes at missing
    rw [if_pos (by omega)] at missing
    cases missing
  · obtain ⟨rfl, _⟩ := fromLeBytes_eq_some read
    exact ⟨inside, split⟩

theorem finds_readU64Field (name : String) {number : Nat} (fits : number < 256 ^ 8) :
    Finds bytes (readU64Field bytes name) (leBytes 8 number) number := by
  intro offset rest stands
  have lengths := congrArg List.length stands
  rw [List.length_append, List.length_drop, length_leBytes] at lengths
  have found : part bytes offset (offset + 8) = some (leBytes 8 number) := by
    have found := part_stands (by omega) stands
    rwa [length_leBytes] at found
  have added : checkedAdd offset 8 = some (offset + 8) :=
    checkedAdd_eq_some.mpr ⟨rfl, by omega⟩
  unfold readU64Field refused
  rw [run_get, run_ofOption added, run_ofOption found, run_ofOption (fromLeBytes_leBytes fits),
    run_set, length_leBytes]
  rfl

omit small in
theorem requireEnd_goes {A : Type} {trailing : Diagnostic} {next : Unit → Reading A}
    {ends : A → Nat → Prop}
    (goes : offset = bytes.length → (next ()).wp ends (fun fault _ => Calm fault) offset) :
    (requireEnd bytes trailing >>= next).wp ends (fun fault _ => Calm fault) offset := by
  unfold requireEnd refuseIf
  rw [wp_bind, wp_bind, wp_get, wp_stopIf]
  exact ⟨fun _ => calm_refused, fun final => goes (not_not.mp final)⟩

omit small in
theorem requireEnd_stands {written : Bytes} (inside : offset ≤ bytes.length)
    (stands : bytes.drop offset = written) (trailing : Diagnostic) :
    requireEnd bytes trailing (offset + written.length) =
      (.ok (), offset + written.length) := by
  have lengths := congrArg List.length stands
  rw [List.length_drop] at lengths
  have final : offset + written.length = bytes.length := by omega
  unfold requireEnd refuseIf stopIf
  rw [run_get, if_neg (not_ne_iff.mpr final)]
  rfl

def leafBytes (leaf : CarrierLeaf) : Bytes :=
  framed (encodeText leaf.path) ++ ([leaf.kind.tag] ++ framed leaf.payload)

def Gathered.push (gathered : Gathered) (leaf : CarrierLeaf) : Gathered :=
  ⟨gathered.leaves ++ [leaf], leaf.path :: gathered.seenPaths,
    gathered.actualTotalPayload + leaf.payload.length⟩

omit small in
theorem tag_of_fromTag {tag : UInt8} {kind : LeafKind} (read : LeafKind.fromTag tag = some kind) :
    kind.tag = tag := by
  unfold LeafKind.fromTag at read
  split_ifs at read with zero
  obtain rfl := Option.some.inj read
  exact zero.symm

omit small in
theorem fromTag_tag (kind : LeafKind) : LeafKind.fromTag kind.tag = some kind := by
  cases kind
  rfl

theorem takes_readKind : Takes bytes (readKind bytes) (fun kind => [kind.tag]) Calm := by
  intro offset _
  unfold readKind refused
  rw [wp_bind, wp_get]
  refine ofOption_goes (fun _ => calm_refused) fun tag stands => ?_
  obtain ⟨inside, rfl⟩ := List.getElem?_eq_some_iff.mp stands
  unfold advance
  rw [wp_bind, wp_bind, wp_get]
  refine ofOption_goes (fun overflows => ?_) fun next added => ?_
  · rw [checkedAdd_eq_some.mpr ⟨rfl, by omega⟩] at overflows
    cases overflows
  · obtain ⟨rfl, _⟩ := checkedAdd_eq_some.mp added
    rw [wp_set, wp_ofOption]
    refine ⟨fun _ => calm_refused, fun kind read => ⟨inside, ?_⟩⟩
    show _ = [kind.tag] ++ _
    rw [tag_of_fromTag read, List.singleton_append]
    exact List.drop_eq_getElem_cons inside

theorem finds_readKind (kind : LeafKind) : Finds bytes (readKind bytes) [kind.tag] kind := by
  intro offset rest stands
  have lengths := congrArg List.length stands
  rw [List.length_append, List.length_drop, List.length_singleton] at lengths
  have found : bytes[offset]? = some kind.tag := by
    rw [← List.head?_drop, stands]
    rfl
  have added : checkedAdd offset 1 = some (offset + 1) :=
    checkedAdd_eq_some.mpr ⟨rfl, by omega⟩
  have advanced : advance offset = (.ok (), offset + 1) := by
    unfold advance
    rw [run_get, run_ofOption added]
    rfl
  unfold readKind refused
  rw [run_get, run_ofOption found, run_bind advanced, fromTag_tag]
  rfl

omit small in
theorem takes_readPayload : Takes bytes (readPayload bytes) framed Calm := by
  intro offset inside
  unfold readPayload refuseIf refused
  refine (takes_readU64Field _).step inside fun declared after inside' taken => ?_
  have length := offset_of_drop inside inside' taken
  rw [length_leBytes] at length
  subst length
  unfold rollBack
  rw [wp_bind, wp_bind, wp_get]
  refine stopIf_goes (fun short => absurd short (by omega)) fun _ => ?_
  rw [wp_set, Nat.add_sub_cancel]
  refine stopIf_goes (fun _ => calm_refused) fun _ => ?_
  rw [wp_bind, wp_get]
  refine ofOption_goes (fun _ => calm_refused) fun found read => ?_
  obtain ⟨inside'', split, _⟩ := readFrame_eq_some read
  exact ⟨inside'', split⟩

theorem finds_readPayload {payload : Bytes} (short : payload.length ≤ maxBytesPerLeaf) :
    Finds bytes (readPayload bytes) (framed payload) payload := by
  intro offset rest stands
  have inside : offset ≤ bytes.length := by
    have lengths := congrArg List.length stands
    rw [List.length_append, List.length_drop, length_framed] at lengths
    omega
  have header : bytes.drop offset = leBytes 8 payload.length ++ (payload ++ rest) := by
    rw [stands, framed, List.append_assoc]
  have limit : maxBytesPerLeaf < 256 ^ 8 := by decide
  have counted := finds_readU64Field small "leaf payload length" (short.trans_lt limit) offset _ header
  rw [length_leBytes] at counted
  have rolled : rollBack (offset + 8) = (.ok (), offset) := by
    unfold rollBack
    rw [run_get, run_stopIf (by omega), Nat.add_sub_cancel]
    rfl
  unfold readPayload refuseIf refused
  rw [run_bind counted, run_bind rolled, run_stopIf (not_lt.mpr short), run_get,
    run_ofOption (readFrame_framed small inside short stands), run_set]
  rfl

/-- **One leaf** is taken off, and its path has not been seen. -/
theorem readLeaf_spec (gathered : Gathered) (inside : offset ≤ bytes.length) :
    (readLeaf bytes gathered).wp
      (fun next after => ∃ leaf, next = gathered.push leaf ∧ after ≤ bytes.length ∧
        bytes.drop offset = leafBytes leaf ++ bytes.drop after)
      (fun fault _ => Calm fault) offset := by
  unfold readLeaf refuseIf refused
  refine (takes_readStringField _).step inside fun path _ inside₁ split₁ => ?_
  refine stopIf_goes (fun _ => calm_refused) fun _ => ?_
  refine (takes_readKind small).step inside₁ fun kind _ inside₂ split₂ => ?_
  refine takes_readPayload.step inside₂ fun payload _ inside₃ split₃ => ?_
  refine ofOption_goes (fun _ => calm_refused) fun total added => ?_
  refine stopIf_goes (fun _ => calm_refused) fun _ => ?_
  obtain ⟨rfl, _⟩ := checkedAdd_eq_some.mp added
  refine ⟨⟨path, kind, payload⟩, rfl, inside₃, ?_⟩
  rw [split₁, split₂, split₃, leafBytes]
  simp only [List.append_assoc]

theorem finds_readLeaf {leaf : CarrierLeaf}
    (path : (encodeText leaf.path).length ≤ maxFrameFieldBytes)
    (payload : leaf.payload.length ≤ maxBytesPerLeaf) (new : leaf.path ∉ gathered.seenPaths)
    (total : gathered.actualTotalPayload + leaf.payload.length ≤ maxTotalPayloadBytes) :
    Finds bytes (readLeaf bytes gathered) (leafBytes leaf) (gathered.push leaf) := by
  have limit : maxTotalPayloadBytes ≤ maxUsize := by decide
  unfold readLeaf refuseIf refused
  refine (finds_readStringField small _ path).bind ?_
  refine Finds.stopIf_bind new ?_
  refine (finds_readKind small leaf.kind).bind ?_
  refine (finds_readPayload small payload).map ?_
  refine Finds.ofOption_bind (checkedAdd_eq_some.mpr ⟨rfl, total.trans limit⟩) ?_
  exact Finds.stopIf_bind (not_lt.mpr total) finds_pure

omit small in
theorem foldl_push (gathered : Gathered) (leaves : List CarrierLeaf) :
    leaves.foldl Gathered.push gathered = ⟨gathered.leaves ++ leaves,
      (leaves.map CarrierLeaf.path).reverse ++ gathered.seenPaths, gathered.actualTotalPayload +
        (leaves.map fun leaf => leaf.payload.length).sum⟩ := by
  induction leaves generalizing gathered with
  | nil => simp
  | cons leaf leaves ih =>
    rw [List.foldl_cons, ih]
    simp [Gathered.push, Nat.add_assoc]

/-- **All leaves** are taken off, as many as there are said to be. -/
theorem readLeaves_spec (count : Nat) (gathered : Gathered) (inside : offset ≤ bytes.length) :
    (readLeaves bytes count gathered).wp
      (fun next after => ∃ leaves : List CarrierLeaf, leaves.length = count ∧
        next = leaves.foldl Gathered.push gathered ∧ after ≤ bytes.length ∧
        bytes.drop offset = leaves.flatMap leafBytes ++ bytes.drop after)
      (fun fault _ => Calm fault) offset := by
  induction count generalizing gathered offset with
  | zero => exact (wp_pure _).mpr ⟨[], rfl, rfl, inside, rfl⟩
  | succ count ih =>
    unfold readLeaves
    rw [wp_bind]
    refine wp_mono (readLeaf_spec small gathered inside) ?_ fun _ _ => id
    rintro next after ⟨leaf, rfl, inside', split⟩
    refine wp_mono (ih (gathered.push leaf) inside') ?_ fun _ _ => id
    rintro last after' ⟨leaves, rfl, rfl, inside'', split'⟩
    refine ⟨leaf :: leaves, rfl, rfl, inside'', ?_⟩
    rw [split, split', List.flatMap_cons, List.append_assoc]

theorem finds_readLeaves {leaves : List CarrierLeaf}
    (paths : ∀ leaf ∈ leaves, (encodeText leaf.path).length ≤ maxFrameFieldBytes)
    (payloads : ∀ leaf ∈ leaves, leaf.payload.length ≤ maxBytesPerLeaf)
    (distinct : (leaves.map CarrierLeaf.path).Nodup)
    (new : ∀ leaf ∈ leaves, leaf.path ∉ gathered.seenPaths)
    (total : gathered.actualTotalPayload + (leaves.map fun leaf => leaf.payload.length).sum ≤
      maxTotalPayloadBytes) :
    Finds bytes (readLeaves bytes leaves.length gathered) (leaves.flatMap leafBytes)
      (leaves.foldl Gathered.push gathered) := by
  induction leaves generalizing gathered with
  | nil => exact finds_pure
  | cons leaf leaves ih =>
    rw [List.map_cons, List.sum_cons] at total
    rw [List.map_cons, List.nodup_cons] at distinct
    rw [List.flatMap_cons]
    refine Finds.bind (finds_readLeaf small (paths leaf List.mem_cons_self)
      (payloads leaf List.mem_cons_self) (new leaf List.mem_cons_self) (by omega)) ?_
    refine ih (fun other mem => paths other (List.mem_cons_of_mem _ mem))
      (fun other mem => payloads other (List.mem_cons_of_mem _ mem)) distinct.2 ?_ ?_
    · intro other mem seen
      rcases List.mem_cons.mp seen with same | early
      · exact distinct.1 (same ▸ List.mem_map_of_mem mem)
      · exact new other (List.mem_cons_of_mem _ mem) early
    · show gathered.actualTotalPayload + leaf.payload.length + _ ≤ _
      omega

end Small

end Readers

end Semaprax.CarrierFrames

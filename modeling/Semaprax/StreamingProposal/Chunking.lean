/-
**Chunks of a streamed document** (`streaming_proposal_decode.rs`).

The scanner and the grammar see one byte after the other, and the bytes of a character that is cut off
are read again, so that it does not matter where a chunk ends. The bound of the buffer is checked for
a whole chunk before any of it is read, and there it does.

* `readFrom_append`, `readFrom_error` — reading in parts.
* `Stands` — what a decoder is after some bytes; `Stands.push`, `stands_pushAll`.
* `call_refused`, `outcomes_refused` — a refusal is kept.
* `chunking_iff` — **chunks do not matter for exactly the documents within the bound**.
* `stream_accepted_iff` — which streams are accepted.
-/

import Semaprax.StreamingProposal.Decoder

namespace Semaprax.StreamingProposal

open Library
open LiveInvocation (Value)
open InteractionSchema (TypeGraph TypeShape utf8)

section Reading

variable {parse : String → Option Value} {reading after : Reading} {base confirmed : Nat}
  {tail : List UInt8} {refusal : StreamRefusal}

theorem feed_append (first second : List UInt8) : reading.feed parse base (first ++ second) =
      (reading.feed parse base first >>= fun after =>
        after.feed parse (base + first.length) second) := by
  induction first generalizing reading base with
  | nil => rfl
  | cons byte first ih =>
    rw [List.cons_append, Reading.feed, Reading.feed]
    cases reading.step parse byte base with
    | error refusal => rfl
    | ok middle =>
      show middle.feed parse (base + 1) (first ++ second) = _
      rw [ih, List.length_cons, Nat.add_assoc, Nat.add_comm 1]
      rfl

theorem readFrom_eq_ok : readFrom parse reading base tail = .ok (after, confirmed) ↔
    reading.feed parse base (confirm tail).1 = .ok after ∧ (confirm tail).2 = false ∧
      confirmed = base + (confirm tail).1.length := by
  unfold readFrom
  rw [bind_eq_ok]
  dsimp only
  constructor
  · rintro ⟨middle, fed, same⟩
    split_ifs at same with broken
    cases same
    exact ⟨fed, Bool.not_eq_true _ ▸ broken, rfl⟩
  · rintro ⟨fed, whole, rfl⟩
    refine ⟨after, fed, ?_⟩
    rw [whole]
    rfl

/-- **Bytes that are read leave a tail,** which is read with the bytes that follow. -/
theorem readFrom_append (read : readFrom parse reading base tail = .ok (after, confirmed)) :
    ∃ text left, tail = text ++ left ∧ confirmed = base + text.length ∧
      ∀ more, readFrom parse reading base (tail ++ more) =
        readFrom parse after confirmed (left ++ more) := by
  obtain ⟨fed, whole, rfl⟩ := readFrom_eq_ok.mp read
  obtain ⟨left, parted, again⟩ := confirm_append (Prod.ext rfl whole : confirm tail = (_, false))
  refine ⟨_, left, parted, rfl, fun more => ?_⟩
  unfold readFrom
  rw [again more]
  dsimp only [prepend]
  rw [feed_append, fed]
  show (after.feed parse _ (confirm (left ++ more)).1 >>= _) = _
  rw [List.length_append, ← Nat.add_assoc]
  rfl

theorem readFrom_error (more : List UInt8) (failed : readFrom parse reading base tail = .error refusal) :
    readFrom parse reading base (tail ++ more) = .error refusal := by
  cases broken : (confirm tail).2 with
  | true =>
    have same := confirm_broken more (Prod.ext rfl broken : confirm tail = (_, true))
    unfold readFrom at failed ⊢
    rw [same]
    rw [broken] at failed
    exact failed
  | false =>
    obtain ⟨left, parted, again⟩ := confirm_append (Prod.ext rfl broken : confirm tail = (_, false))
    have failed : reading.feed parse base (confirm tail).1 = .error refusal := by
      unfold readFrom at failed
      rw [broken] at failed
      rcases bind_eq_error.mp failed with failed | ⟨_, _, failed⟩
      · exact failed
      · cases failed
    unfold readFrom
    rw [again more]
    dsimp only [prepend]
    rw [feed_append, failed]
    rfl

end Reading

namespace ProposalStreamDecoder

variable {parse : String → Option Value} {schema : CompiledInteractionSchema}
  {decoder : ProposalStreamDecoder} {bytes chunk : List UInt8}

/-- What a decoder is after some bytes: it keeps the refusal of the first byte that is refused, or it
has read the bytes that are confirmed. -/
structure Stands (parse : String → Option Value) (schema : CompiledInteractionSchema)
    (bytes : List UInt8) (decoder : ProposalStreamDecoder) : Prop where
  bound : decoder.schema = schema
  refused : ∀ refusal, readFrom parse (.new schema) 0 bytes = .error refusal →
    decoder.terminal = some (.refused refusal)
  read : ∀ reading confirmed, readFrom parse (.new schema) 0 bytes = .ok (reading, confirmed) →
    decoder.terminal = none ∧ decoder.buffer = bytes ∧ decoder.reading = reading ∧
      decoder.confirmedLen = confirmed

variable {terminal : TerminalResult} {byte : UInt8} {rest : List UInt8}

theorem Stands.new : Stands parse schema [] (new schema) where
  bound := rfl
  refused := fun _ failed => by cases failed
  read := fun _ _ read => by
    cases read
    exact ⟨rfl, rfl, rfl, rfl⟩

/-- **A chunk within the bound** takes a decoder from what it is after the bytes before to what it is
after all. -/
theorem Stands.push (stands : Stands parse schema bytes decoder)
    (room : bytes.length + chunk.length ≤ maxStreamBytes) :
    Stands parse schema (bytes ++ chunk) (decoder.push parse chunk).2 := by
  cases earlier : readFrom parse (.new schema) 0 bytes with
  | error refusal =>
    have kept := stands.refused refusal earlier
    have later := readFrom_error chunk earlier
    have same : (decoder.push parse chunk).2 = decoder := by
      unfold ProposalStreamDecoder.push
      rw [kept]
    rw [same]
    refine ⟨stands.bound, fun other failed => ?_, fun _ _ read => ?_⟩
    · rw [later] at failed
      cases failed
      exact kept
    · rw [later] at read
      cases read
  | ok result =>
    obtain ⟨reading, confirmed⟩ := result
    obtain ⟨open', held, stood, count⟩ := stands.read reading confirmed earlier
    by_cases empty : chunk.isEmpty = true
    · have same : (decoder.push parse chunk).2 = decoder := by
        unfold ProposalStreamDecoder.push
        rw [open']
        dsimp only
        rw [if_pos empty]
      rw [same, List.isEmpty_iff.mp empty, List.append_nil]
      exact stands
    · obtain ⟨text, left, parted, reached, again⟩ := readFrom_append earlier
      have drop : (bytes ++ chunk).drop confirmed = left ++ chunk := by
        rw [parted, reached, Nat.zero_add, List.append_assoc, List.drop_left]
      have whole := again chunk
      cases later : readFrom parse (.new schema) 0 (bytes ++ chunk) with
      | error refusal =>
        have pushed : (decoder.push parse chunk).2 = { decoder with
            buffer := bytes ++ chunk, terminal := some (.refused refusal) } := by
          unfold ProposalStreamDecoder.push
          rw [open']
          dsimp only
          rw [if_neg empty, held, if_neg (Nat.not_lt.mpr room), stood, count, drop, ← whole, later]
          rfl
        rw [pushed]
        refine ⟨stands.bound, fun other failed => ?_, fun _ _ read => ?_⟩
        · rw [later] at failed
          cases failed
          rfl
        · rw [later] at read
          cases read
      | ok result =>
        obtain ⟨reading', confirmed'⟩ := result
        have pushed : (decoder.push parse chunk).2 = { decoder with
            buffer := bytes ++ chunk, reading := reading', confirmedLen := confirmed' } := by
          unfold ProposalStreamDecoder.push
          rw [open']
          dsimp only
          rw [if_neg empty, held, if_neg (Nat.not_lt.mpr room), stood, count, drop, ← whole, later]
        rw [pushed]
        refine ⟨stands.bound, fun other failed => ?_, fun _ _ read => ?_⟩
        · rw [later] at failed
          cases failed
        · rw [later] at read
          cases read
          exact ⟨open', rfl, rfl, rfl⟩

theorem stands_pushAll (stands : Stands parse schema bytes decoder) (chunks : List (List UInt8))
    (room : bytes.length + chunks.flatten.length ≤ maxStreamBytes) :
    Stands parse schema (bytes ++ chunks.flatten) (decoder.pushAll parse chunks) := by
  induction chunks generalizing bytes decoder with
  | nil =>
    rw [List.flatten_nil, List.append_nil]
    exact stands
  | cons chunk chunks ih =>
    rw [List.flatten_cons, List.length_append] at room
    rw [List.flatten_cons, ← List.append_assoc]
    exact ih (stands.push (by omega)) (by rw [List.length_append]; omega)

theorem Stands.finish {decoder' : ProposalStreamDecoder} (stands : Stands parse schema bytes decoder)
    (stands' : Stands parse schema bytes decoder') :
    (decoder.finish parse).1 = (decoder'.finish parse).1 := by
  cases outcome : readFrom parse (.new schema) 0 bytes with
  | error refusal =>
    unfold ProposalStreamDecoder.finish
    rw [stands.refused refusal outcome, stands'.refused refusal outcome]
  | ok result =>
    obtain ⟨reading, confirmed⟩ := result
    obtain ⟨open', held, stood, count⟩ := stands.read reading confirmed outcome
    obtain ⟨open'', held', stood', count'⟩ := stands'.read reading confirmed outcome
    have bound := stands.bound.trans stands'.bound.symm
    unfold ProposalStreamDecoder.finish
    rw [open', open'', bound, stood, stood', held, held']
    split_ifs
    · cases decoder'.schema.decode parse bytes with
      | error diagnostic | ok value => rfl
    · rfl

theorem call_of_terminal (kept : decoder.terminal = some terminal)
    (next : Call) : decoder.call parse next = (terminal.outcome, decoder) := by
  cases next <;> simp only [call, ProposalStreamDecoder.push, cancel, ProposalStreamDecoder.finish,
    kept]

theorem finalize_refused {refusal : StreamRefusal}
    (refused : (decoder.finalize terminal).1 = .refused refusal) :
    (decoder.finalize terminal).2.terminal = some (.refused refusal) := by
  cases terminal with
  | accepted value => cases refused
  | refused other =>
    cases refused
    rfl

theorem call_refused {next : Call} {refusal : StreamRefusal}
    (refused : (decoder.call parse next).1 = .refused refusal) :
    (decoder.call parse next).2.terminal = some (.refused refusal) := by
  cases kept : decoder.terminal with
  | some terminal =>
    rw [call_of_terminal kept] at refused ⊢
    cases terminal with
    | accepted value => cases refused
    | refused other =>
      cases refused
      exact kept
  | none =>
    cases next with
    | push chunk =>
      simp only [call, ProposalStreamDecoder.push, kept] at refused ⊢
      split_ifs at refused ⊢
      · exact finalize_refused refused
      · cases read : readFrom parse decoder.reading decoder.confirmedLen
            ((decoder.buffer ++ chunk).drop decoder.confirmedLen) with
        | error other =>
          rw [read] at refused
          exact finalize_refused refused
        | ok result =>
          rw [read] at refused
          cases refused
    | cancel reason =>
      simp only [call, cancel, kept] at refused ⊢
      exact finalize_refused refused
    | finish =>
      simp only [call, ProposalStreamDecoder.finish, kept] at refused ⊢
      split_ifs at refused ⊢
      · cases read : decoder.schema.decode parse decoder.buffer with
        | error diagnostic | ok value =>
          rw [read] at refused
          exact finalize_refused refused
      · exact finalize_refused refused

/-- **After a refusal every call returns it.** -/
theorem outcomes_refused {refusal : StreamRefusal} (kept : decoder.terminal = some (.refused refusal))
    (calls : List Call) : ∀ outcome ∈ outcomes parse decoder calls, outcome = .refused refusal := by
  induction calls with
  | nil => exact List.forall_mem_nil _
  | cons next calls ih =>
    intro outcome member
    rw [outcomes, call_of_terminal kept] at member
    rcases List.mem_cons.mp member with rfl | member
    · rfl
    · exact ih outcome member

theorem finalOutcome_chunks {chunks chunks' : List (List UInt8)} (same : chunks.flatten = chunks'.flatten)
    (room : chunks.flatten.length ≤ maxStreamBytes) :
    finalOutcome parse schema chunks = finalOutcome parse schema chunks' := by
  have fresh : Stands parse schema [] (new schema) := .new
  have first := stands_pushAll fresh chunks (by rwa [List.length_nil, Nat.zero_add])
  have second := stands_pushAll fresh chunks' (by rwa [List.length_nil, Nat.zero_add, ← same])
  rw [← same] at second
  exact first.finish second

theorem push_beyond (open' : decoder.terminal = none)
    (beyond : maxStreamBytes < decoder.buffer.length + chunk.length)
    (some' : chunk.isEmpty = false) :
    decoder.push parse chunk = decoder.finalize (.refused (bytesRefusal decoder.buffer.length)) := by
  unfold ProposalStreamDecoder.push
  rw [open']
  dsimp only
  rw [if_neg (by rw [some']; exact Bool.false_ne_true), if_pos beyond]

theorem finish_kept (kept : decoder.terminal = some terminal) :
    (decoder.finish parse).1 = terminal.outcome := by
  unfold ProposalStreamDecoder.finish
  rw [kept]

theorem step_literal {state : GrammarState} {kind : ExpectedNext}
    {location : String} {stack : List Op} (atByte : Nat)
    (top : state.stack = .literal (byte :: rest) kind location :: stack)
    (room : state.work + 1 ≤ maxGrammarWork) (shallow : state.stack.length ≤ maxStreamDepth * 4) :
    state.step parse byte atByte = .ok
      { state with
        work := state.work + 1
        stack := literal rest kind location stack } := by
  have charged : state.charge 1 atByte = .ok
      { state with work := state.work + 1 } := by
    unfold GrammarState.charge
    rw [if_neg (Nat.not_lt.mpr room), if_neg (Nat.not_lt.mpr shallow)]
  unfold GrammarState.step
  rw [show maxGrammarWork + 1 - state.work = (maxGrammarWork - state.work) + 1 by omega, loop]
  refine bind_eq_ok.mpr ⟨_, charged, ?_⟩
  dsimp only
  rw [top]
  exact bind_eq_ok.mpr ⟨_, if_pos rfl, rfl⟩

theorem step_openBrace (parse : String → Option Value) (schema : CompiledInteractionSchema) :
    ∃ after, (GrammarState.new schema.streamGrammar).step parse Scanner.openBrace 0 = .ok after := by
  obtain ⟨rest, opens⟩ : ∃ rest, utf8 schema.streamEnvelopePrefix = Scanner.openBrace :: rest := by
    unfold CompiledInteractionSchema.streamEnvelopePrefix utf8
    simp only [String.append_assoc, String.toByteArray_append, ByteArray.data_append,
      Array.toList_append]
    exact ⟨_, rfl⟩
  have top : (GrammarState.new schema.streamGrammar).stack =
      .literal (Scanner.openBrace :: rest) .envelope "envelope" ::
        .value (.type schema.graph.rootTypeId) schema.graph.rootTypeId ::
        literal (utf8 "\x7d\n") .objectKey "document" [] := by
    show literal (utf8 schema.streamEnvelopePrefix) .envelope "envelope" _ = _
    rw [opens]
    rfl
  have last : (literal (utf8 "\x7d\n") .objectKey "document" []).length ≤ 1 := by
    unfold literal
    split_ifs <;> simp
  refine ⟨_, step_literal 0 top ?_ ?_⟩
  · show 0 + 1 ≤ maxGrammarWork
    decide
  · rw [top, List.length_cons, List.length_cons]
    unfold maxStreamDepth
    omega

theorem step_first (parse : String → Option Value) (schema : CompiledInteractionSchema)
    (byte : UInt8) :
    (∃ after, (Reading.new schema).step parse byte 0 = .ok after) ∨
      ∃ refusal, (Reading.new schema).step parse byte 0 = .error refusal ∧ refusal.code = .start := by
  by_cases opens : byte = Scanner.openBrace
  · have scanned : (Reading.new schema).scan.step byte 0 = .ok
        { Scanner.new with started := true, stack := [Scanner.closeBrace] } := by
      rw [opens]
      rfl
    obtain ⟨after, taken⟩ := step_openBrace parse schema
    rw [← opens] at taken
    exact .inl ⟨_, bind_eq_ok.mpr ⟨_, scanned, bind_eq_ok.mpr ⟨_, taken, rfl⟩⟩⟩
  · have scanned : (Reading.new schema).scan.step byte 0 =
        .error ⟨.start, "a streamed Proposal document must open with '\x7b'", 0⟩ := by
      show (if byte = Scanner.openBrace then _ else _) = _
      rw [if_neg opens]
    exact .inr ⟨_, bind_eq_error.mpr (.inl scanned), rfl⟩

theorem readFrom_byte {refusal : StreamRefusal}
    (failed : readFrom parse (.new schema) 0 [byte] = .error refusal) : refusal.code ≠ .bytes := by
  unfold readFrom confirm confirmFrom at failed
  cases begun : expected byte with
  | none =>
    rw [begun] at failed
    cases failed
    exact StreamCode.noConfusion
  | some ranges =>
    rw [begun] at failed
    cases ranges with
    | cons range ranges => cases failed
    | nil =>
      rcases step_first parse schema byte with
        ⟨after, taken⟩ | ⟨other, refused, code⟩
      · have fed : (Reading.new schema).feed parse 0 [byte] = .ok after :=
          bind_eq_ok.mpr ⟨after, taken, rfl⟩
        rcases bind_eq_error.mp failed with failed | ⟨_, _, failed⟩
        · rw [show (prepend [byte] (confirmFrom [] [] [])).1 = [byte] from rfl, fed] at failed
          cases failed
        · cases failed
      · have fed : (Reading.new schema).feed parse 0 [byte] = .error other :=
          bind_eq_error.mpr (.inl refused)
        rcases bind_eq_error.mp failed with failed | ⟨_, read, _⟩
        · rw [show (prepend [byte] (confirmFrom [] [] [])).1 = [byte] from rfl, fed] at failed
          cases failed
          rw [code]
          exact StreamCode.noConfusion
        · rw [show (prepend [byte] (confirmFrom [] [] [])).1 = [byte] from rfl, fed] at read
          cases read

theorem finalOutcome_whole (beyond : maxStreamBytes < bytes.length) :
    finalOutcome parse schema [bytes] = .refused (bytesRefusal 0) := by
  have some' : bytes.isEmpty = false := by
    cases bytes with
    | nil => exact absurd beyond (Nat.not_lt_zero _)
    | cons first rest => rfl
  have pushed : (new schema).push parse bytes =
      (new schema).finalize (.refused (bytesRefusal 0)) :=
    push_beyond rfl (by rwa [show (new schema).buffer.length = 0 from rfl, Nat.zero_add]) some'
  show (((new schema).push parse bytes).2.finish parse).1 = _
  rw [pushed]
  rfl

/-- The first byte alone, before the others: the bound is not what refuses, or it refuses a byte
later. -/
theorem finalOutcome_parted {first : UInt8} (beyond : maxStreamBytes < (first :: rest).length) :
    ∃ refusal, finalOutcome parse schema [[first], rest] = .refused refusal ∧
      refusal ≠ bytesRefusal 0 := by
  have fresh : Stands parse schema [] (new schema) := .new
  have stands := fresh.push (show ([] : List UInt8).length + [first].length ≤ maxStreamBytes from
    show 0 + 1 ≤ maxStreamBytes by decide)
  show ∃ refusal, ((((new schema).push parse [first]).2.push parse rest).2.finish parse).1 = _ ∧ _
  cases outcome : readFrom parse (.new schema) 0 [first] with
  | error refusal =>
    have kept := stands.refused refusal outcome
    have same : call parse ((new schema).push parse [first]).2 (.push rest) =
        (.refused refusal, ((new schema).push parse [first]).2) := call_of_terminal kept _
    refine ⟨refusal, ?_, fun equal => readFrom_byte outcome (congrArg StreamRefusal.code equal)⟩
    rw [show ((new schema).push parse [first]).2.push parse rest = _ from same]
    exact finish_kept kept
  | ok result =>
    obtain ⟨reading, confirmed⟩ := result
    obtain ⟨open', held, -, -⟩ := stands.read reading confirmed outcome
    have length : ((new schema).push parse [first]).2.buffer.length = 1 := congrArg List.length held
    have some' : rest.isEmpty = false := by
      cases rest with
      | nil => exact absurd beyond (show ¬ maxStreamBytes < 1 by decide)
      | cons second rest => rfl
    have long : maxStreamBytes < ((new schema).push parse [first]).2.buffer.length + rest.length := by
      rw [length, Nat.add_comm]
      exact beyond
    refine ⟨bytesRefusal 1, ?_, fun equal => ?_⟩
    · rw [push_beyond open' long some', length]
      rfl
    · exact absurd (congrArg StreamRefusal.atByte equal) Nat.one_ne_zero

/-- **A chunking does not matter for exactly the documents within the bound.** For these, whatever
chunks they are cut into, the same comes of them; and a refusal is returned by every later call. A
document beyond the bound is refused for its length at the place where the chunk begins that does not
fit, unless a byte of the chunks before it is refused first. -/
theorem chunking_iff (parse : String → Option Value) (schema : CompiledInteractionSchema)
    (bytes : List UInt8) :
    ((∀ chunks chunks', chunks.flatten = bytes → chunks'.flatten = bytes →
        finalOutcome parse schema chunks = finalOutcome parse schema chunks') ∧
      ∀ (decoder : ProposalStreamDecoder) next refusal,
        (decoder.call parse next).1 = .refused refusal →
          ∀ calls, ∀ outcome ∈ outcomes parse (decoder.call parse next).2 calls,
            outcome = .refused refusal) ↔
      bytes.length ≤ maxStreamBytes := by
  constructor
  · rintro ⟨same, -⟩
    by_contra beyond
    have beyond := Nat.not_le.mp beyond
    cases bytes with
    | nil => exact absurd beyond (Nat.not_lt_zero _)
    | cons first rest =>
      have equal := same [first :: rest] [[first], rest] (by simp) (by simp)
      obtain ⟨refusal, parted, differs⟩ := finalOutcome_parted beyond
      rw [finalOutcome_whole beyond, parted] at equal
      cases equal
      exact differs rfl
  · intro room
    refine ⟨fun chunks chunks' cut cut' => finalOutcome_chunks (cut.trans cut'.symm) (cut ▸ room), ?_⟩
    intro decoder next refusal refused calls
    exact outcomes_refused (call_refused refused) calls

/-- A document that is one byte too long, at once and with its first byte before the others. -/
theorem chunking_differs : [List.replicate 65537 (0x78 : UInt8)].flatten =
        [[0x78], List.replicate 65536 (0x78 : UInt8)].flatten ∧
      finalOutcome (fun _ => none)
          ⟨⟨"flag", [⟨"flag", .record [⟨"flag.on", .scalar .bool⟩]⟩]⟩, "digest"⟩
          [List.replicate 65537 0x78] = .refused (bytesRefusal 0) ∧
      finalOutcome (fun _ => none)
          ⟨⟨"flag", [⟨"flag", .record [⟨"flag.on", .scalar .bool⟩]⟩]⟩, "digest"⟩
          [[0x78], List.replicate 65536 0x78] =
        .refused ⟨.start, "a streamed Proposal document must open with '\x7b'", 0⟩ := by
  refine ⟨?_, finalOutcome_whole ?_, rfl⟩
  · rw [List.flatten_cons, List.flatten_cons, List.flatten_cons, List.flatten_nil, List.append_nil,
      List.append_nil, List.replicate_succ]
    rfl
  · rw [List.length_replicate]
    decide

/-- What has been pushed, to a decoder that may have refused it. -/
structure Pushed (bytes : List UInt8) (decoder : ProposalStreamDecoder) : Prop where
  held : decoder.terminal = none → decoder.buffer = bytes ∧ bytes.length ≤ maxStreamBytes
  refused : ∀ terminal, decoder.terminal = some terminal → ∃ refusal, terminal = .refused refusal

theorem Pushed.push (pushed : Pushed bytes decoder) :
    Pushed (bytes ++ chunk) (decoder.push parse chunk).2 := by
  unfold ProposalStreamDecoder.push
  cases closed : decoder.terminal with
  | some terminal =>
    refine ⟨fun open' => ?_, pushed.refused⟩
    rw [closed] at open'
    cases open'
  | none =>
    obtain ⟨held, -⟩ := pushed.held closed
    dsimp only
    split_ifs with empty beyond
    · rw [List.isEmpty_iff.mp empty, List.append_nil]
      exact pushed
    · exact ⟨nofun, fun _ same => ⟨_, (Option.some.inj same).symm⟩⟩
    · split
      · exact ⟨nofun, fun _ same => ⟨_, (Option.some.inj same).symm⟩⟩
      · refine ⟨fun _ => ⟨congrArg (· ++ chunk) held, ?_⟩, fun _ same => ?_⟩
        · rw [List.length_append, ← held]
          exact Nat.not_lt.mp beyond
        · cases same

theorem pushed_pushAll (pushed : Pushed bytes decoder) (chunks : List (List UInt8)) :
    Pushed (bytes ++ chunks.flatten) (decoder.pushAll parse chunks) := by
  induction chunks generalizing bytes decoder with
  | nil =>
    rw [List.flatten_nil, List.append_nil]
    exact pushed
  | cons chunk chunks ih =>
    rw [List.flatten_cons, ← List.append_assoc]
    exact ih pushed.push

/-- **A stream is accepted exactly if it is within the bound, the whole document is decoded, and no
byte of it is refused before the one that ends it.** -/
theorem stream_accepted_iff (parse : String → Option Value) (schema : CompiledInteractionSchema)
    (chunks : List (List UInt8)) (decoded : InteractionSchema.DecodedInteractionValue) :
    finalOutcome parse schema chunks = .accepted decoded ↔
      chunks.flatten.length ≤ maxStreamBytes ∧
        schema.decode parse chunks.flatten = .ok decoded ∧
        ∃ reading confirmed, readFrom parse (.new schema) 0 chunks.flatten =
          .ok (reading, confirmed) ∧ reading.scan.terminated = true := by
  have fresh : Pushed [] (new schema) := ⟨fun _ => ⟨rfl, Nat.zero_le _⟩, fun _ same => by cases same⟩
  have pushed : Pushed chunks.flatten ((new schema).pushAll parse chunks) :=
    pushed_pushAll fresh chunks
  have stood (room : chunks.flatten.length ≤ maxStreamBytes) :
      Stands parse schema chunks.flatten ((new schema).pushAll parse chunks) :=
    stands_pushAll .new chunks (by simpa using room)
  unfold finalOutcome finish
  constructor
  · intro accepted
    cases closed : ((new schema).pushAll parse chunks).terminal with
    | some terminal =>
      obtain ⟨refusal, rfl⟩ := pushed.refused terminal closed
      rw [closed] at accepted
      cases accepted
    | none =>
      obtain ⟨held, room⟩ := pushed.held closed
      have stands := stood room
      cases outcome : readFrom parse (.new schema) 0 chunks.flatten with
      | error refusal =>
        have refused := stands.refused refusal outcome
        rw [closed] at refused
        cases refused
      | ok result =>
        obtain ⟨-, -, reads, -⟩ := stands.read result.1 result.2 outcome
        rw [closed, held, reads, stands.bound] at accepted
        dsimp only at accepted
        split_ifs at accepted with terminated
        · cases taken : schema.decode parse chunks.flatten with
          | error diagnostic =>
            rw [taken] at accepted
            cases accepted
          | ok value =>
            rw [taken] at accepted
            cases accepted
            exact ⟨room, rfl, _, _, rfl, terminated⟩
        · cases accepted
  · rintro ⟨room, taken, reading, confirmed, read, terminated⟩
    obtain ⟨open', held, rfl, -⟩ := (stood room).read reading confirmed read
    rw [open', held, (stood room).bound]
    dsimp only
    rw [if_pos terminated, taken]
    rfl

end ProposalStreamDecoder

end Semaprax.StreamingProposal

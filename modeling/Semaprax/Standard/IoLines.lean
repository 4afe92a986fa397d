/-
**The line cursor of the standard library** (`std/io-lines`).

* `lineEnd`, `lineContentLen`, `readerLineInto`, `Reader.nextLine` — the cursor, over a view of bytes.
* `Reader.parts` — a line by what is left of the view.
* `linesKept_iff` — no byte is lost, save for the carriage return that the view itself ends in.
-/

import Mathlib

namespace Semaprax.Standard

def lineEnd (view : List UInt8) (start : Nat) : Nat :=
  if start < view.length then
    if view[start]? = some 10 then start else lineEnd view (start + 1)
  else start
termination_by view.length - start

def lineContentLen (view : List UInt8) (start : Nat) : Nat :=
  let lineEnd := lineEnd view start
  let prior := if lineEnd > start then view[lineEnd - 1]?.getD 0 else 0
  if prior = 13 then lineEnd - start - 1 else lineEnd - start

structure Reader where
  data : List UInt8
  position : Nat
  inside : position ≤ data.length

structure Writer where
  data : List UInt8
  position : Nat

/-- The loop of `reader_line_into`, with `remaining` bytes to go. -/
def copyLine (view : List UInt8) (start write : Nat) : Nat → List UInt8 → List UInt8
  | 0, target => target
  | remaining + 1, target =>
      copyLine view (start + 1) (write + 1) remaining (target.set write (view[start]?.getD 0))

def readerLineInto (input : Reader) (output : Writer) : Writer where
  data := copyLine input.data input.position output.position
    (lineContentLen input.data input.position) output.data
  position := output.position + lineContentLen input.data input.position

theorem lineEnd_eq {view : List UInt8} {start : Nat} (inside : start ≤ view.length) :
    lineEnd view start = start + ((view.drop start).takeWhile (· ≠ 10)).length := by
  fun_induction lineEnd with
  | case1 start here feed =>
    rw [List.getElem?_eq_getElem here, Option.some.injEq] at feed
    simp [List.drop_eq_getElem_cons here, feed]
  | case2 start here other ih =>
    rw [List.getElem?_eq_getElem here, Option.some.injEq] at other
    rw [ih here, List.drop_eq_getElem_cons here, List.takeWhile_cons_of_pos (by simpa using other),
      List.length_cons]
    omega
  | case3 start past => simp [List.drop_eq_nil_of_le (not_lt.mp past)]

namespace Reader

variable (reader : Reader)

def nextLine : Reader where
  data := reader.data
  position :=
    if lineEnd reader.data reader.position < reader.data.length then
      lineEnd reader.data reader.position + 1
    else reader.data.length
  inside := by split_ifs <;> omega

theorem nextLine_length (more : reader.position < reader.data.length) :
    reader.nextLine.data.length - reader.nextLine.position <
      reader.data.length - reader.position := by
  have stop := lineEnd_eq reader.inside
  simp only [nextLine]
  split_ifs <;> omega

/-- The lines that are visited until the position is the view's length. -/
def visited (reader : Reader) : List Reader :=
  if reader.position < reader.data.length then reader :: visited reader.nextLine else []
termination_by reader.data.length - reader.position
decreasing_by exact reader.nextLine_length ‹_›

def rest : List UInt8 := reader.data.drop reader.position

/-- The bytes of the line, and those the cursor goes over behind them. -/
def content : List UInt8 := reader.rest.take (lineContentLen reader.data reader.position)

def ending : List UInt8 :=
  (reader.rest.take (reader.nextLine.position - reader.position)).drop
    (lineContentLen reader.data reader.position)

/-- What is left up to the line feed, and from there on. -/
def line : List UInt8 := reader.rest.takeWhile (· ≠ 10)

def more : List UInt8 := reader.rest.dropWhile (· ≠ 10)

theorem line_append_more : reader.line ++ reader.more = reader.rest :=
  List.takeWhile_append_dropWhile

/-- The cursor goes over the line and its line feed; a return that the line ends in does not count
to its content. -/
theorem parts : ∃ content returns, reader.line = content ++ returns ∧
    (returns = [] ∧ content.getLast? ≠ some 13 ∨ returns = [13]) ∧
      lineContentLen reader.data reader.position = content.length ∧ reader.content = content ∧
      reader.ending = returns ++ reader.more.take 1 ∧ reader.nextLine.rest = reader.more.tail := by
  have stop : lineEnd reader.data reader.position = reader.position + reader.line.length :=
    lineEnd_eq reader.inside
  have split := reader.line_append_more
  generalize reader.line = line at split stop
  generalize reader.more = more at split
  have total : reader.position + line.length + more.length = reader.data.length := by
    have lengths := congrArg List.length split
    have inside := reader.inside
    simp only [rest, List.length_append, List.length_drop] at lengths
    omega
  have next : reader.nextLine.position = reader.position + line.length + (more.take 1).length := by
    simp only [nextLine, stop, List.length_take]
    split_ifs <;> omega
  have behind : reader.nextLine.rest = more.tail := by
    show reader.data.drop reader.nextLine.position = _
    rw [next, Nat.add_assoc, ← List.drop_drop]
    show reader.rest.drop _ = _
    rw [← split, List.drop_length_add_append]
    cases more <;> simp
  have cut : ∀ content returns, line = content ++ returns →
      lineContentLen reader.data reader.position = content.length →
      reader.content = content ∧ reader.ending = returns ++ more.take 1 := by
    rintro content returns rfl length
    unfold Reader.content ending
    rw [length, next, Nat.add_assoc, Nat.add_sub_cancel_left, ← split,
      List.take_length_add_append, List.append_assoc, List.append_assoc, List.drop_left,
      List.take_left]
    cases more <;> simp
  have prior : (if lineEnd reader.data reader.position > reader.position then
      reader.data[lineEnd reader.data reader.position - 1]?.getD 0 else 0) =
      line.getLast?.getD 0 := by
    rcases line.eq_nil_or_concat' with rfl | ⟨body, byte, rfl⟩
    · simp [stop]
    · have here : reader.data[reader.position + body.length]? = some byte := by
        rw [← List.getElem?_drop]
        show reader.rest[body.length]? = some byte
        simp [← split]
      simp [stop, here]
  have length : lineContentLen reader.data reader.position =
      if line.getLast?.getD 0 = 13 then line.length - 1 else line.length := by
    simp only [lineContentLen, prior]
    rw [stop, Nat.add_sub_cancel_left]
  by_cases isReturn : line.getLast? = some 13
  · obtain ⟨body, rfl⟩ := List.getLast?_eq_some_iff.mp isReturn
    obtain ⟨isContent, isEnding⟩ := cut body [13] rfl (by simpa using length)
    exact ⟨body, [13], rfl, .inr rfl, by simpa using length, isContent, isEnding, behind⟩
  · have length : lineContentLen reader.data reader.position = line.length := by
      rw [length, if_neg fun same => isReturn ?_]
      cases last : line.getLast? with
      | none => simp [last] at same
      | some byte => simpa [last] using same
    obtain ⟨isContent, isEnding⟩ := cut line [] (line.append_nil).symm length
    exact ⟨line, [], (line.append_nil).symm, .inl ⟨rfl, isReturn⟩, length, isContent, isEnding,
      behind⟩

/-- What is left behind the line starts at the line feed. -/
theorem more_head (byte : UInt8) (rest : List UInt8) (more : reader.more = byte :: rest) :
    byte = 10 := by
  have first := List.head?_dropWhile_not (· ≠ 10) reader.rest
  rw [show reader.rest.dropWhile (· ≠ 10) = byte :: rest from more] at first
  simpa using first

theorem rest_eq_nil : reader.rest = [] ↔ ¬reader.position < reader.data.length :=
  List.drop_eq_nil_iff.trans not_lt.symm

theorem visited_bytes :
    (reader.visited.flatMap fun line => line.content ++ line.ending) = reader.rest := by
  fun_induction visited reader with
  | case1 reader _ ih =>
    obtain ⟨content, returns, isLine, -, -, isContent, isEnding, next⟩ := reader.parts
    rw [List.flatMap_cons, ih, isContent, isEnding, next, ← reader.line_append_more, isLine]
    cases reader.more <;> simp
  | case2 reader past => exact (reader.rest_eq_nil.mpr past).symm

theorem visited_content : ∀ line ∈ reader.visited, 10 ∉ line.content := by
  fun_induction visited reader with
  | case1 reader _ ih =>
    obtain ⟨content, returns, isLine, -, -, isContent, -⟩ := reader.parts
    refine List.forall_mem_cons.mpr ⟨fun member => ?_, ih⟩
    have inLine : 10 ∈ reader.line := isLine ▸ List.mem_append_left _ (isContent ▸ member)
    simpa using List.mem_takeWhile_imp inLine
  | case2 => simp

/-- Each line ends properly, unless the view itself ends in a carriage return. -/
theorem visited_ending : (∀ line ∈ reader.visited,
    line.ending = [] ∨ line.ending = [10] ∨ line.ending = [13, 10]) ↔
      reader.rest.getLast? ≠ some 13 := by
  fun_induction visited reader with
  | case1 reader _ ih =>
    obtain ⟨content, returns, isLine, last, -, -, isEnding, next⟩ := reader.parts
    rw [List.forall_mem_cons, ih, isEnding, next, ← reader.line_append_more, isLine]
    rcases more : reader.more with - | ⟨byte, rest⟩
    · rcases last with ⟨rfl, last⟩ | rfl
      · simp [last]
      · simp
    · obtain rfl := reader.more_head byte rest more
      have ended : returns = [] ∨ returns = [13] := last.imp_left And.left
      rcases ended with rfl | rfl <;> cases rest <;> simp
  | case2 reader past => simp [reader.rest_eq_nil.mpr past]

end Reader

/-- Every line feed as a return and a line feed. -/
def withReturns (view : List UInt8) : List UInt8 :=
  view.flatMap fun byte => if byte = 10 then [13, 10] else [byte]

theorem withReturns_eq_nil {view : List UInt8} : withReturns view = [] ↔ view = [] := by
  cases view with
  | nil => simp [withReturns]
  | cons byte view =>
    simp only [withReturns, List.flatMap_cons]
    split_ifs <;> simp

theorem withReturns_cut (view : List UInt8) : (withReturns view).takeWhile (· ≠ 10) =
        view.takeWhile (· ≠ 10) ++ (if 10 ∈ view then [13] else []) ∧
      ((withReturns view).dropWhile (· ≠ 10)).tail =
        withReturns (view.dropWhile (· ≠ 10)).tail := by
  induction view with
  | nil => exact ⟨rfl, rfl⟩
  | cons byte view ih =>
    by_cases feed : byte = 10
    · subst feed
      simp [withReturns]
    · have cons : withReturns (byte :: view) = byte :: withReturns view := by
        simp [withReturns, feed]
      rw [cons]
      simpa [feed, Ne.symm feed] using ih

theorem visited_withReturns (reader other : Reader) (free : 13 ∉ reader.rest)
    (returned : other.rest = withReturns reader.rest) :
    other.visited.map Reader.content = reader.visited.map Reader.content := by
  fun_induction Reader.visited reader generalizing other with
  | case1 reader more ih =>
    obtain ⟨isLine', isMore⟩ := withReturns_cut reader.rest
    rw [← returned] at isLine' isMore
    have here : other.position < other.data.length := by
      by_contra past
      rw [other.rest_eq_nil.mpr past, eq_comm, withReturns_eq_nil] at returned
      exact reader.rest_eq_nil.mp returned more
    obtain ⟨content, returns, isLine, ends, -, isContent, -, next⟩ := reader.parts
    obtain ⟨content', returns', other', ends', -, isContent', -, next'⟩ := other.parts
    have free' : 13 ∉ content ++ returns := fun member =>
      free ((List.takeWhile_prefix _).subset (isLine ▸ member : 13 ∈ reader.line))
    obtain rfl : returns = [] := by
      rcases ends with ⟨rfl, -⟩ | rfl
      · rfl
      · simp at free'
    have same : content' = content := by
      have lines := other'.symm.trans (isLine'.trans (congrArg (· ++ _) isLine))
      rcases ends' with ⟨rfl, last⟩ | rfl
      · split_ifs at lines <;> simp_all
      · split_ifs at lines
        · simpa using lines
        · rw [List.append_nil] at lines
          exact absurd (lines ▸ List.mem_append_right content' (.head _) : 13 ∈ content ++ []) free'
    rw [Reader.visited, if_pos here, List.map_cons, List.map_cons, isContent, isContent', same]
    congr 1
    refine ih _ (fun member => free ?_) (next'.trans (isMore.trans (congrArg _ next.symm)))
    rw [next] at member
    exact (List.dropWhile_suffix _).subset (List.mem_of_mem_tail member)
  | case2 reader past =>
    have past' : ¬other.position < other.data.length := by
      rw [← other.rest_eq_nil, returned, withReturns_eq_nil]
      exact reader.rest_eq_nil.mpr past
    rw [Reader.visited, if_neg past']

theorem getElem?_copyLine (view : List UInt8) (start write remaining : Nat) (target : List UInt8)
    (inView : start + remaining ≤ view.length) (room : write + remaining ≤ target.length)
    (index : Nat) :
    (copyLine view start write remaining target)[index]? =
      if write ≤ index ∧ index < write + remaining then view[start + (index - write)]?
      else target[index]? := by
  induction remaining generalizing start write target with
  | zero => rw [if_neg (by omega)]; rfl
  | succ remaining ih =>
    unfold copyLine
    rw [ih _ _ _ (by omega) (by simpa using by omega)]
    by_cases here : index = write
    · subst here
      rw [if_neg (by omega), if_pos (by omega), List.getElem?_set_self (by omega)]
      simp [List.getElem?_eq_getElem (show start < view.length by omega)]
    · rw [List.getElem?_set_ne (Ne.symm here)]
      by_cases within : write + 1 ≤ index ∧ index < write + 1 + remaining
      · rw [if_pos within, if_pos (by omega)]
        congr 1
        omega
      · rw [if_neg within, if_neg (by omega)]

/-- The reader that `reader_from_bytes` gives. -/
def readerFromBytes (data : List UInt8) : Reader := ⟨data, 0, data.length.zero_le⟩

/-- What the line cursor makes of a view. -/
structure LinesKept (view : List UInt8) : Prop where
  bytes : ((readerFromBytes view).visited.flatMap fun line => line.content ++ line.ending) = view
  content : ∀ line ∈ (readerFromBytes view).visited, 10 ∉ line.content
  ending : ∀ line ∈ (readerFromBytes view).visited,
    line.ending = [] ∨ line.ending = [10] ∨ line.ending = [13, 10]
  returns : 13 ∉ view → (readerFromBytes (withReturns view)).visited.map Reader.content =
    (readerFromBytes view).visited.map Reader.content
  copied : ∀ (input : Reader) (output : Writer), input.data = view →
    output.position + input.content.length ≤ output.data.length →
    (readerLineInto input output).position = output.position + input.content.length ∧
    ∀ index : Nat, (readerLineInto input output).data[index]? =
      if output.position ≤ index ∧ index < output.position + input.content.length then
        input.content[index - output.position]?
      else output.data[index]?

/-- The return at the end of a view is in no line. -/
theorem trailing_return_lost : ¬LinesKept [97, 13] := fun kept =>
  (readerFromBytes [97, 13]).visited_ending.mp kept.ending rfl

/-- **A view is kept exactly if it does not end in a carriage return.** -/
theorem linesKept_iff (view : List UInt8) : LinesKept view ↔ view.getLast? ≠ some 13 := by
  have ends := (readerFromBytes view).visited_ending
  refine ⟨fun kept => ends.mp kept.ending, fun last => ?_⟩
  refine ⟨(readerFromBytes view).visited_bytes, (readerFromBytes view).visited_content,
    ends.mpr last, fun free => visited_withReturns _ _ free rfl, fun input output _ room => ?_⟩
  obtain ⟨content, returns, isLine, -, length, isContent, -⟩ := input.parts
  have inside : input.position + content.length ≤ input.data.length := by
    have split := congrArg List.length input.line_append_more
    have within := input.inside
    simp only [isLine, Reader.rest, List.length_append, List.length_drop] at split
    omega
  rw [isContent] at room ⊢
  refine ⟨congrArg (output.position + ·) length, fun index => ?_⟩
  have copied := getElem?_copyLine input.data input.position output.position content.length
    output.data inside room index
  rw [← length] at copied
  refine copied.trans ?_
  rw [length]
  refine if_ctx_congr Iff.rfl (fun here => ?_) fun _ => rfl
  rw [← isContent, Reader.content, length, List.getElem?_take_of_lt (by omega), Reader.rest,
    List.getElem?_drop]

end Semaprax.Standard

import ProgramGraph.Json.Record
import ProgramGraph.Proofs.Binary.Record
import ProgramGraph.Proofs.Json.Scan
import ProgramGraph.Proofs.Keeping

/-!
# Records from JSON fit 64 bits

Readers take bytes off the front of a text and never put any back.  So no text and no list
that they read is longer than the whole text, and numbers are refused when they leave 64
bits.  Whatever is read as a record therefore fits, as long as the file does.
-/

namespace ProgramGraph.Json

variable {α : Type} {Q : α → Prop}

/-- The number of bytes fits 64 bits. -/
def Sized (bytes : List UInt8) : Prop :=
  bytes.length < wordBound

theorem Sized.mono {bytes rest : List UInt8} (sized : Sized bytes)
    (shorter : rest.length ≤ bytes.length) : Sized rest :=
  Nat.lt_of_le_of_lt shorter sized

/-- What a reader leaves of a text that fits is a text that fits, and its answer has a
property. -/
abbrev Bounded (read : Reader α) (Q : α → Prop) : Prop :=
  Keeps Sized read Q

/-- Nothing is said of the answer. -/
abbrev Shortens (read : Reader α) : Prop :=
  Bounded read fun _ => True

/-! ## Strings -/

/-- How many bytes of a string have been read for the character that is not yet complete. -/
def StringState.pending : StringState → Nat
  | plain => 0
  | escape => 1
  | digits count _ _ lead => 2 + count + lead.elim 0 fun _ => 6
  | pair _ => 6
  | pairLetter _ => 7

theorem length_encodeChar_le (c : Char) : (Utf8.encodeChar c).length ≤ 4 := by
  rw [Utf8.encodeChar]
  split_ifs <;> simp

/-- Escapes of one letter stand for ASCII. -/
theorem length_unescape {next : UInt8} {c : Char} (found : unescape? next = some c) :
    (Utf8.encodeChar c).length = 1 := by
  rw [unescape?] at found
  split_ifs at found <;> cases found <;> rfl

/-- A string is no longer than what it is read from: no escape stands for more bytes than
it has. -/
theorem length_stringRest {state : StringState} {done bytes text rest : List UInt8}
    (read : stringRest state done bytes = .ok (text, rest)) :
    text.length + rest.length ≤ done.length + state.pending + bytes.length := by
  fun_induction stringRest state done bytes
  all_goals simp only [StringState.pending, pushChar, List.length_append, List.length_cons,
    List.length_reverse, Option.elim] at *
  -- The closing quote.
  case case2 =>
    cases read
    rw [List.length_reverse]
    omega
  -- The three ways in which an escape is completed.
  case case6 unescaped ih =>
    have one := length_unescape unescaped
    have shorter := ih read
    omega
  case case13 value _ _ _ _ _ ih =>
    have few := length_encodeChar_le (Char.ofNat value)
    have shorter := ih read
    omega
  case case14 value _ _ _ lead _ ih =>
    have few := length_encodeChar_le (joinPair lead value)
    have shorter := ih read
    omega
  all_goals first
    | cases read
    | next ih =>
        have shorter := ih read
        omega

theorem length_skipStringRest {state : StringState} {bytes rest : List UInt8}
    (read : skipStringRest state bytes = .ok rest) : rest.length ≤ bytes.length := by
  fun_induction skipStringRest state bytes
  all_goals first
    | cases read
    | next ih => exact Nat.le_succ_of_le (ih read)
  exact Nat.le_succ _

namespace Reader

theorem shortens_modify {change : List UInt8 → List UInt8}
    (shorter : ∀ bytes, (change bytes).length ≤ bytes.length) : Shortens (modify change) :=
  .modify fun bytes sized => sized.mono (shorter bytes)

theorem shortens_peek : Shortens peek :=
  (shortens_modify fun _ => (List.dropWhile_sublist _).length_le).bind fun _ _ =>
    Keeps.get.bind fun _ _ => .pure trivial

theorem shortens_next? : Shortens next? :=
  Keeps.get.bind fun _ _ => .pure trivial

theorem shortens_skip : Shortens skip :=
  shortens_modify fun _ => by simp

theorem shortens_isNext (chars : List Char) : Shortens (isNext chars) :=
  shortens_next?.bind fun _ _ => .pure trivial

theorem shortens_word (letters : List Char) : Shortens (word letters) := by
  induction letters with
  | nil => exact .pure trivial
  | cons c letters ih =>
      exact shortens_next?.bind_option (.throw _) fun _ =>
        shortens_skip.bind fun _ _ => .ite ih (.throw _)

theorem bounded_string : Bounded string fun text => Sized (Utf8.bytesOf text) := by
  refine shortens_skip.bind fun _ _ => Keeps.get.bind fun bytes sized =>
    (Keeps.lift (Q := fun read => Sized read.1 ∧ Sized read.2) ?_).bind fun read within => ?_
  · intro (text, rest) read
    have shorter := length_stringRest read
    rw [StringState.pending, List.length_nil, Nat.zero_add] at shorter
    exact ⟨sized.mono (Nat.le_of_add_right_le shorter), sized.mono (Nat.le_of_add_left_le shorter)⟩
  · obtain ⟨encoded, rest⟩ := read
    refine (Keeps.set within.2).bind fun _ _ => ?_
    cases decoded : Utf8.textOf encoded with
    | error fault => exact .throw _
    | ok text =>
        refine .pure ?_
        rw [← Utf8.textOf_eq_ok_iff.mp decoded]
        exact within.1

theorem shortens_skipString : Shortens skipString :=
  shortens_skip.bind fun _ _ => Keeps.get.bind fun _ sized =>
    (Keeps.lift fun _ read => sized.mono (length_skipStringRest read)).bind fun _ => .set

/-! ## Numbers -/

theorem shortens_countDigits : Shortens countDigits :=
  Keeps.get.bind fun _ _ => (shortens_modify fun _ => by simp).bind fun _ _ => .pure trivial

/-- Digits that would make a number leave 64 bits are not taken. -/
theorem digitsRest_within {value count : Nat} {bytes : List UInt8} (fits : value < wordBound) :
    (digitsRest value count bytes).1.1 < wordBound ∧
      (digitsRest value count bytes).2.length ≤ bytes.length := by
  fun_induction digitsRest value count bytes with
  | case1 => exact ⟨fits, Nat.le_refl _⟩
  | case2 => exact ⟨fits, Nat.le_refl _⟩
  | case3 value count next rest digit longer short ih =>
      have last : wordMax < wordBound := by decide
      obtain ⟨fits, shorter⟩ := ih (Nat.lt_of_le_of_lt (Nat.not_lt.mp short) last)
      exact ⟨fits, Nat.le_succ_of_le shorter⟩
  | case4 => exact ⟨fits, Nat.le_refl _⟩

theorem bounded_digits {value : Nat} (fits : value < wordBound) :
    Bounded (digits value) fun read => read.1 < wordBound := by
  intro bytes answer after sized done
  have within : (digitsRest value 0 bytes).1.1 < wordBound ∧
      (digitsRest value 0 bytes).2.length ≤ bytes.length :=
    digitsRest_within fits
  rw [run_digits] at done
  rw [Except.ok.inj done] at within
  exact ⟨sized.mono within.2, within.1⟩

/-- A value has 64 bits if it is a natural number. -/
def IsWord (value : Value) : Prop :=
  ∀ number : Nat, value = .integer number → number < wordBound

theorem isWord_natural {number : Nat} (fits : number < wordBound) : IsWord (.integer number) := by
  intro number same
  cases same
  exact fits

theorem isWord_negative {number : Nat} (nonzero : number ≠ 0) : IsWord (.integer (-number)) := by
  intro number same
  have same := Value.integer.inj same
  omega

/-- Numbers in double precision are no natural numbers. -/
theorem bounded_floating (positive : Bool) (significand : Nat) (exponent : Int) :
    Keeps Sized (liftM (floating positive significand exponent) : Reader Value) IsWord := by
  refine .lift fun value made number whole => ?_
  rw [whole, floating] at made
  cases scaled : scale 8 (UInt64.ofNat significand).toFloat exponent with
  | error fault =>
      rw [scaled] at made
      cases made
  | ok value =>
      rw [scaled] at made
      cases made

theorem bounded_exponent (positive : Bool) (significand : Nat) (start : Int) :
    Bounded (exponent positive significand start) IsWord := by
  refine shortens_skip.bind fun _ _ => (shortens_isNext _).bind fun isNegative _ =>
    (shortens_isNext _).bind fun _ _ => .when shortens_skip fun _ =>
      shortens_next?.bind_option (.throw_bind _ _) fun next => .when (.throw _) fun _ => ?_
  exact (bounded_digits (by decide)).bind fun _ _ => shortens_countDigits.bind fun _ _ =>
    .ite (bounded_floating _ _ _) (.ite (.throw _) (bounded_floating _ _ _))

theorem bounded_optionalExponent (positive : Bool) (significand : Nat) (start : Int) :
    Bounded (optionalExponent positive significand start) IsWord :=
  (shortens_isNext _).bind fun _ _ =>
    .ite (bounded_exponent positive significand start) (bounded_floating _ _ _)

theorem bounded_fraction (positive : Bool) {significand : Nat} (fits : significand < wordBound)
    (start : Int) : Bounded (fraction positive significand start) IsWord := by
  refine shortens_skip.bind fun _ _ =>
    (bounded_digits fits).bind fun (significand, count, isLong) _ => ?_
  have rest := bounded_optionalExponent positive significand (start - count)
  refine .ite (shortens_countDigits.bind fun _ _ => rest) (.ite ?_ rest)
  exact shortens_next?.bind_option (.throw_bind _ _) fun _ => .throw_bind _ _

theorem bounded_afterWhole (positive : Bool) {significand : Nat} (fits : significand < wordBound) :
    Bounded (afterWhole positive significand) IsWord := by
  refine (shortens_isNext _).bind fun _ _ => .ite (bounded_fraction positive fits 0) <|
    (shortens_isNext _).bind fun _ _ => .ite (bounded_exponent positive significand 0) <|
      .ite (.pure (isWord_natural fits)) ?_
  split
  next negative =>
    rw [Bool.and_eq_true, bne_iff_ne] at negative
    exact .pure (isWord_negative negative.1)
  next => exact bounded_floating _ _ _

theorem bounded_unsigned (positive : Bool) : Bounded (unsigned positive) IsWord := by
  refine shortens_next?.bind_option (.throw _) fun next => .ite ?zero (.ite ?digits (.throw _))
  case zero =>
    exact shortens_skip.bind fun _ _ => shortens_next?.bind fun _ _ =>
      .when (.throw _) fun _ => bounded_afterWhole positive (by decide)
  case digits =>
    refine (bounded_digits (by decide)).bind fun (significand, count, isLong) fits =>
      .ite (bounded_afterWhole positive fits) <| shortens_countDigits.bind fun more _ =>
        (shortens_isNext _).bind fun _ _ => ?_
    exact .ite (bounded_fraction positive fits more) (bounded_optionalExponent _ _ _)

theorem bounded_number : Bounded number IsWord :=
  (shortens_isNext _).bind fun _ _ =>
    .ite (shortens_skip.bind fun _ _ => bounded_unsigned false) (bounded_unsigned true)

theorem shortens_skipExponent : Shortens skipExponent :=
  shortens_skip.bind fun _ _ => (shortens_isNext _).bind fun _ _ => .when shortens_skip fun _ =>
    shortens_countDigits.bind fun _ _ => .ite (.throw _) (.pure trivial)

theorem shortens_skipNumber : Shortens skipNumber := by
  have exponent : Shortens (do if ← isNext ['e', 'E'] then skipExponent) :=
    (shortens_isNext _).bind fun _ _ => .ite shortens_skipExponent (.pure trivial)
  have fraction : Shortens (do
      if ← isNext ['.'] then
        skip
        if (← countDigits) == 0 then throw .invalidNumber
      if ← isNext ['e', 'E'] then skipExponent) :=
    (shortens_isNext _).bind fun _ _ =>
      .ite (shortens_skip.bind fun _ _ => shortens_countDigits.bind fun _ _ =>
        .when (.throw _) fun _ => exponent) exponent
  exact (shortens_isNext _).bind fun _ _ => .when shortens_skip fun _ =>
    (shortens_isNext _).bind fun _ _ => .ite
      (shortens_skip.bind fun _ _ => shortens_next?.bind fun _ _ =>
        .when (.throw _) fun _ => fraction)
      (shortens_countDigits.bind fun _ _ => .when (.throw _) fun _ => fraction)

/-! ## Values that are passed over -/

theorem shortens_skipStart : Shortens skipStart := by
  have passed {skips : Reader Unit} (shortens : Shortens skips) (opened : Option Frame) :
      Shortens (do skips; return opened) :=
    shortens.bind fun _ _ => .pure trivial
  exact shortens_peek.bind_option (.throw _) fun _ =>
    .ite (passed (shortens_word _) _) <| .ite (passed (shortens_word _) _) <|
    .ite (passed (shortens_word _) _) <| .ite (passed shortens_skipNumber _) <|
    .ite (passed shortens_skipString _) <| .ite (passed shortens_skip _) <|
    .ite (passed shortens_skip _) (.throw _)

theorem shortens_skipEnds (comma : Bool) (frame : Frame) (outer : List Frame) :
    Shortens (skipEnds comma frame outer) := by
  have goesOn {ahead : Option (Frame × List Frame)} : Shortens (do skip; return ahead) :=
    shortens_skip.bind fun _ _ => .pure trivial
  induction outer generalizing comma frame with
  | nil =>
      rw [skipEnds]
      exact shortens_peek.bind_option (.throw _) fun _ =>
        .ite goesOn <| .ite goesOn <| .ite (.throw _) (.pure trivial)
  | cons outermost outer ih =>
      rw [skipEnds]
      exact shortens_peek.bind_option (.throw _) fun _ =>
        .ite goesOn <| .ite (shortens_skip.bind fun _ _ => ih true outermost) <|
        .ite (.throw _) (.pure trivial)

theorem shortens_colon : Shortens colon :=
  shortens_peek.bind_option (.throw _) fun _ => .ite shortens_skip (.throw _)

theorem shortens_skipKey : Shortens skipKey :=
  shortens_peek.bind_option (.throw_bind _ _) fun _ =>
    .ite (shortens_skipString.bind fun _ _ => shortens_colon) (.throw_bind _ _)

/-- What is left of the open frames is passed over if each value within it is. -/
theorem shortens_ahead {bound : Nat} (within : ∀ frames, Shortens (skipWithin bound frames))
    (ahead : Option (Frame × List Frame)) :
    Shortens (match ahead with
      | none => return ()
      | some (frame, outer) => do
          if frame = .object then skipKey
          skipWithin bound (frame :: outer)) := by
  cases ahead with
  | none => exact .pure trivial
  | some next => exact .when shortens_skipKey fun _ => within _

theorem shortens_skipWithin (bound : Nat) (frames : List Frame) :
    Shortens (skipWithin bound frames) := by
  induction bound generalizing frames with
  | zero => exact .throw _
  | succ bound ih =>
      refine shortens_skipStart.bind fun opened _ => ?_
      cases opened with
      | some frame =>
          exact (shortens_skipEnds false frame frames).bind fun ahead _ => shortens_ahead ih ahead
      | none =>
          cases frames with
          | nil => exact shortens_ahead ih none
          | cons frame outer =>
              exact (shortens_skipEnds true frame outer).bind fun ahead _ =>
                shortens_ahead ih ahead

theorem shortens_skipValue : Shortens skipValue :=
  Keeps.get.bind fun _ _ => shortens_skipWithin _ _

/-! ## Values -/

/-- Nothing is answered where something else is found. -/
theorem bounded_mismatchHere (expected : String) : Bounded (mismatchHere expected) Q := by
  have word (letters : List Char) (found : Found) :
      Bounded (do word letters; throw (.mismatch (.type found expected))) Q :=
    (shortens_word letters).bind fun _ _ => .throw _
  exact shortens_peek.bind_option (.throw _) fun _ =>
    .ite (word _ _) <| .ite (word _ _) <| .ite (word _ _) <|
    .ite (bounded_number.bind fun _ _ => .throw _) <|
    .ite (bounded_string.bind fun _ _ => .throw _) <| .ite (.throw _) <|
    .ite (.throw _) (.throw _)

theorem bounded_stringOr (expected : String) :
    Bounded (stringOr expected) fun text => Sized (Utf8.bytesOf text) :=
  shortens_peek.bind fun _ _ => .ite bounded_string (bounded_mismatchHere expected)

theorem bounded_natural (expected : String) :
    Bounded (natural expected) fun number => number < wordBound := by
  refine shortens_peek.bind_option (.throw _) fun _ =>
    .ite (bounded_number.bind fun value isWord => ?_) (bounded_mismatchHere expected)
  match value with
  | .integer (.ofNat number) => exact .pure (isWord number rfl)
  | .integer (.negSucc number) => exact .throw _
  | .null | .boolean _ | .floating _ | .string _ | .list _ | .object _ => exact .throw _

theorem shortens_unit : Shortens unit :=
  shortens_peek.bind fun _ _ => .ite (shortens_word _) (bounded_mismatchHere _)

theorem shortens_named (ofName? : String → Option α) (names : List String) :
    Shortens (do
      let name ← stringOr "variant identifier"
      match ofName? name with
      | some value => return value
      | none => throw (.mismatch (.variant name names))) := by
  refine (bounded_stringOr _).bind fun name _ => ?_
  cases ofName? name with
  | none => exact .throw _
  | some value => exact .pure trivial

theorem shortens_variant (ofName? : String → Option α) (names : List String) :
    Shortens (variant ofName? names) := by
  have name := shortens_named ofName? names
  refine shortens_peek.bind_option (.throw _) fun _ => .ite name <| .ite ?_ (.throw _)
  exact shortens_skip.bind fun _ _ => name.bind fun _ _ => shortens_colon.bind fun _ _ =>
    shortens_unit.bind fun _ _ => shortens_peek.bind_option (.throw _) fun _ =>
      .ite (shortens_skip.bind fun _ _ => .pure trivial) (.throw _)

/-! ## Lists and objects -/

theorem shortens_nextElement (isFirst : Bool) : Shortens (nextElement isFirst) := by
  refine shortens_peek.bind_option (.throw _) fun _ =>
    .ite (.pure trivial) <| .ite (.pure trivial) <| .ite ?_ (.throw _)
  exact shortens_skip.bind fun _ _ => shortens_peek.bind_option (.throw _) fun _ =>
    .ite (.throw _) (.pure trivial)

theorem shortens_endList : Shortens endList := by
  refine shortens_peek.bind_option (.throw _) fun _ => .ite shortens_skip <| .ite ?_ (.throw _)
  exact shortens_skip.bind fun _ _ => shortens_peek.bind fun _ _ => .ite (.throw _) (.throw _)

theorem shortens_nextMember (isFirst : Bool) : Shortens (nextMember isFirst) := by
  refine shortens_peek.bind_option (.throw _) fun _ =>
    .ite (.pure trivial) <| .ite (.ite (.pure trivial) (.throw _)) <| .ite ?_ (.throw _)
  exact shortens_skip.bind fun _ _ => shortens_peek.bind_option (.throw _) fun _ =>
    .ite (.pure trivial) (.ite (.throw _) (.throw _))

theorem shortens_endObject : Shortens endObject :=
  shortens_peek.bind_option (.throw _) fun _ =>
    .ite shortens_skip (.ite (.throw _) (.throw _))

theorem bounded_elementsFrom {element : Reader α} (reads : Bounded element Q) (bound : Nat)
    {done : List α} (all : ∀ one ∈ done, Q one) :
    Bounded (elementsFrom element bound done) fun elements =>
      (∀ one ∈ elements, Q one) ∧ elements.length ≤ done.length + bound := by
  have ended (bound : Nat) {done : List α} (all : ∀ one ∈ done, Q one) :
      Bounded (return done.reverse) fun elements =>
        (∀ one ∈ elements, Q one) ∧ elements.length ≤ done.length + bound :=
    .pure ⟨fun one member => all one (List.mem_reverse.mp member), by simp⟩
  induction bound generalizing done with
  | zero => exact ended 0 all
  | succ bound ih =>
      refine (shortens_nextElement _).bind fun _ _ => .ite ?_ (ended _ all)
      refine reads.bind fun first holds =>
        (ih (List.forall_mem_cons.mpr ⟨holds, all⟩)).mono fun elements found => ?_
      have short := found.2
      rw [List.length_cons, Nat.add_assoc, Nat.add_comm 1] at short
      exact ⟨found.1, short⟩

/-- The bracket that opens a list leaves at most as many elements as there are bytes. -/
theorem bounded_list {element : Reader α} (reads : Bounded element Q) :
    Bounded (list element) fun elements =>
      (∀ one ∈ elements, Q one) ∧ elements.length < wordBound := by
  intro bytes elements after sized done
  have remaining := sized.mono (List.dropWhile_sublist isBlank).length_le
  change (if (bytes.dropWhile isBlank).head? == some (byte '[') then _ else _ : Reader _).run
    (bytes.dropWhile isBlank) = _ at done
  split at done
  next opens =>
    cases ahead : bytes.dropWhile isBlank with
    | nil =>
        rw [ahead] at opens
        exact absurd opens (by decide)
    | cons next rest =>
        rw [ahead] at remaining done
        have room : rest.length + 1 < wordBound := remaining
        have inner : Bounded (do
            let elements ← elementsFrom element (rest.length + 1) []
            endList
            return elements) fun elements =>
              (∀ one ∈ elements, Q one) ∧ elements.length < wordBound :=
          (bounded_elementsFrom reads _ (by simp)).bind fun elements found =>
            shortens_endList.bind fun _ _ =>
              .pure ⟨found.1, Nat.lt_of_le_of_lt found.2 (by simpa using room)⟩
        exact inner rest elements after (Nat.lt_of_succ_lt room) done
  next =>
    have refuses : Bounded (mismatchHere "a sequence") fun elements : List α =>
        (∀ one ∈ elements, Q one) ∧ elements.length < wordBound :=
      bounded_mismatchHere "a sequence"
    exact refuses _ elements after remaining done

end Reader

/-! ## Data of a shape -/

namespace Shape

variable {shape : Shape α}

theorem bounded_readElements {fields : List (Field α)} {data : α}
    (keeps : ∀ field ∈ fields, ∀ data, Q data → Bounded (field.read data) Q) (count : Nat)
    (holds : Q data) : Bounded (shape.readElements count data fields) Q := by
  induction fields generalizing count data with
  | nil => exact .pure holds
  | cons field fields ih =>
      rw [List.forall_mem_cons] at keeps
      exact (Reader.shortens_nextElement _).bind fun _ _ =>
        .ite ((keeps.1 data holds).bind fun _ holds => ih keeps.2 _ holds) (.throw _)

variable {data : α} (keeps : ∀ field ∈ shape.fields, ∀ data, Q data → Bounded (field.read data) Q)
include keeps

theorem bounded_readMembers (bound : Nat) (isFirst : Bool) (given : List String) (holds : Q data) :
    Bounded (shape.readMembers bound isFirst given data) Q := by
  induction bound generalizing isFirst given data with
  | zero => exact .pure holds
  | succ bound ih =>
      refine (Reader.shortens_nextMember _).bind fun _ _ => .ite ?next ?last
      case next =>
        refine Reader.bounded_string.bind fun name _ => ?_
        cases found : shape.fields.find? (·.name == name) with
        | some field =>
            exact .when (.throw _) fun _ => Reader.shortens_colon.bind fun _ _ =>
              (keeps field (List.mem_of_find?_eq_some found) data holds).bind fun _ => ih _ _
        | none =>
            exact Reader.shortens_colon.bind fun _ _ => Reader.shortens_skipValue.bind fun _ _ =>
              ih _ _ holds
      case last =>
        cases shape.fields.find? (!given.contains ·.name) with
        | some field => exact .throw _
        | none => exact .pure holds

/-- Data have what the reading of each field keeps. -/
theorem bounded_read (holds : Q data) : Bounded (shape.read data) Q := by
  refine Reader.shortens_peek.bind_option (.throw _) fun _ =>
    .ite ?list <| .ite ?object (Reader.bounded_mismatchHere _)
  case list =>
    exact Reader.shortens_skip.bind fun _ _ =>
      (bounded_readElements keeps 0 holds).bind fun _ holds =>
        Reader.shortens_endList.bind fun _ _ => .pure holds
  case object =>
    exact Reader.shortens_skip.bind fun _ _ => Keeps.get.bind fun _ _ =>
      (bounded_readMembers keeps _ _ _ holds).bind fun _ holds =>
        Reader.shortens_endObject.bind fun _ _ => .pure holds

end Shape

end ProgramGraph.Json

namespace ProgramGraph

open Json Reader

/-! ## Records -/

theorem Node.bounded_read : Bounded (Node.shape.read default) Node.FitsBytes := by
  refine Shape.bounded_read ?_ (by decide)
  simp only [Node.shape, List.forall_mem_cons, List.not_mem_nil, false_imp_iff, implies_true,
    and_true]
  refine ⟨?id, ?kind, ?contents, ?startPosition, ?endPosition, ?startLine, ?endLine⟩
  all_goals intro node fits
  case id => exact (bounded_natural _).bind fun _ small => .pure { fits with id := small }
  case kind => exact (shortens_variant _ _).bind fun _ _ => .pure { fits with }
  case contents =>
    exact (bounded_stringOr _).bind fun _ short => .pure { fits with contents := short }
  case startPosition =>
    exact (bounded_natural _).bind fun _ small => .pure { fits with startPosition := small }
  case endPosition =>
    exact (bounded_natural _).bind fun _ small => .pure { fits with endPosition := small }
  case startLine =>
    exact (bounded_natural _).bind fun _ small => .pure { fits with startLine := small }
  case endLine =>
    exact (bounded_natural _).bind fun _ small => .pure { fits with endLine := small }

theorem Edge.bounded_read : Bounded (Edge.shape.read default) Edge.FitsWords := by
  refine Shape.bounded_read ?_ (by decide)
  simp only [Edge.shape, List.forall_mem_cons, List.not_mem_nil, false_imp_iff, implies_true,
    and_true]
  refine ⟨?source, ?target, ?kind⟩
  all_goals intro edge fits
  case source => exact (bounded_natural _).bind fun _ small => .pure { fits with source := small }
  case target => exact (bounded_natural _).bind fun _ small => .pure { fits with target := small }
  case kind => exact (shortens_variant _ _).bind fun _ _ => .pure { fits with }

namespace Record

theorem bounded_read : Bounded (Record.shape.read default) Record.FitsBytes := by
  refine Shape.bounded_read ?_ (by decide)
  simp only [Record.shape, List.forall_mem_cons, List.not_mem_nil, false_imp_iff, implies_true,
    and_true]
  refine ⟨?sourceFile, ?nodes, ?edges⟩
  all_goals intro record fits
  case sourceFile =>
    exact (bounded_stringOr _).bind fun _ short => .pure { fits with sourceFile := short }
  case nodes =>
    exact (bounded_list Node.bounded_read).bind fun _ all =>
      .pure { fits with nodes := all.1, nodeCount := all.2 }
  case edges =>
    exact (bounded_list Edge.bounded_read).bind fun _ all =>
      .pure { fits with edges := all.1, edgeCount := all.2 }

/-- A record that is read from JSON fits 64 bits if the text does. -/
theorem fitsBytes_of_ofJson {bytes : List UInt8} {record : Record}
    (sized : bytes.length < wordBound) (read : ofJson bytes = .ok record) : record.FitsBytes := by
  have bounded : Bounded reader FitsBytes :=
    bounded_read.bind fun _ fits => shortens_peek.bind fun _ _ =>
      .when (.throw _) fun _ => .pure fits
  rw [ofJson] at read
  cases ran : reader.run bytes with
  | error fault =>
      rw [ran] at read
      cases read
  | ok answer =>
      obtain ⟨found, after⟩ := answer
      rw [ran] at read
      cases read
      exact (bounded bytes _ after sized ran).2

end Record

end ProgramGraph

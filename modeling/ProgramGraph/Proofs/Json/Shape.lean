import Mathlib.Data.List.Nodup
import ProgramGraph.Json.Shape
import ProgramGraph.Proofs.Json.Scan
import ProgramGraph.Proofs.Words

/-!
# Data of a shape are read as they were written

Values are laid out with blanks before them, and readers pass over blanks.  So what is
said here is said of a value at every level of either layout: a reader *reads* a value
if it passes over the written form and answers with the element that was meant.

Lists and objects are written alike, as items with commas between them, and read alike,
one item at a time with a bound that each item pays for with a byte.  An object of a
shape gives the fields in their order; reading each of them takes the data one step
further.
-/

namespace ProgramGraph.Json

open Utf8 (encode)

variable {α β : Type} {bytes rest : List UInt8} {blanks : List Char}

/-! ## Blanks -/

/-- Blanks as a layout puts them between values. -/
def Blank (text : List Char) : Prop :=
  ∀ c ∈ text, c = ' ' ∨ c = '\n'

theorem blank_nil : Blank [] := by
  simp [Blank]

theorem blank_lead (layout : Layout) (level : Nat) : Blank (layout.lead level) := by
  cases layout with
  | compact => exact blank_nil
  | pretty => simp +contextual [Blank, Layout.lead, indentation]

theorem colon_eq (layout : Layout) : ∃ blanks, Blank blanks ∧ layout.colon = ':' :: blanks := by
  cases layout with
  | compact => exact ⟨[], blank_nil, rfl⟩
  | pretty => exact ⟨[' '], by simp [Blank], rfl⟩

theorem dropWhile_blank (blank : Blank blanks) :
    (encode blanks ++ bytes).dropWhile isBlank = bytes.dropWhile isBlank := by
  induction blanks with
  | nil => rfl
  | cons c blanks inductionHypothesis =>
      rw [Blank, List.forall_mem_cons] at blank
      obtain ⟨rfl | rfl, others⟩ := blank <;> exact inductionHypothesis others

namespace Reader

/-- Blanks are passed over. -/
theorem run_peek (blank : Blank blanks) {next : UInt8} {after : List UInt8}
    (begins : bytes = next :: after) (noBlank : isBlank next = false) :
    peek.run (encode blanks ++ bytes) = .ok (some next, bytes) := by
  subst begins
  have ahead : (encode blanks ++ next :: after).dropWhile isBlank = next :: after := by
    rw [dropWhile_blank blank, List.dropWhile_cons_of_neg (by simp [noBlank])]
  simp [peek, ahead]

theorem run_peek_comma : peek.run (byte ',' :: bytes) = .ok (some (byte ','), byte ',' :: bytes) :=
  rfl

end Reader

/-! ## Ends of values -/

theorem ends_nil : Ends [] := by
  simp [Ends]

theorem ends_cons {next : UInt8}
    (other : isDigit next = false ∧ next ∉ ['.', 'e', 'E'].map byte) : Ends (next :: rest) := by
  simpa [Ends] using other

theorem ends_blank (blank : Blank blanks) (ends : Ends rest) : Ends (encode blanks ++ rest) := by
  cases blanks with
  | nil => exact ends
  | cons c blanks =>
      obtain rfl | rfl := blank c List.mem_cons_self <;> exact ends_cons (by decide)

/-! ## Items -/

/-- Items with a comma before each of them. -/
def Layout.items (layout : Layout) (level : Nat) (items : List (List Char)) : List Char :=
  items.flatMap fun item => ',' :: layout.lead level ++ item

/-- A key and its value as they are written. -/
def writeMember (layout : Layout) (level : Nat) (member : String × Value) : List Char :=
  writeString member.1 ++ layout.colon ++ write layout level member.2

section Items

variable (layout : Layout) (level : Nat)

theorem writeElements_eq_items (values : List Value) :
    write.writeElements layout level values =
      layout.items level (values.map (write layout level)) := by
  induction values with
  | nil => rw [write.writeElements, List.map_nil, Layout.items, List.flatMap_nil]
  | cons value values inductionHypothesis =>
      rw [write.writeElements, inductionHypothesis]
      simp [Layout.items]

theorem writeMembers_eq_items (members : List (String × Value)) :
    write.writeMembers layout level members =
      layout.items level (members.map (writeMember layout level)) := by
  induction members with
  | nil => rw [write.writeMembers, List.map_nil, Layout.items, List.flatMap_nil]
  | cons member members inductionHypothesis =>
      obtain ⟨key, value⟩ := member
      rw [write.writeMembers, inductionHypothesis]
      simp [Layout.items, writeMember]

/-- A list is written as its items without the first comma, between brackets. -/
theorem write_list (values : List Value) :
    ∃ blanks, Blank blanks ∧ write layout level (.list values) =
      '[' :: ((layout.items (level + 1) (values.map (write layout (level + 1)))).drop 1 ++
        blanks ++ [']']) := by
  cases values with
  | nil => exact ⟨[], blank_nil, by simp [write, Layout.items]⟩
  | cons value values =>
      refine ⟨layout.lead level, blank_lead layout level, ?_⟩
      simp [write, writeElements_eq_items, Layout.items]

/-- An object is written as its items without the first comma, between braces. -/
theorem write_object (members : List (String × Value)) :
    ∃ blanks, Blank blanks ∧ write layout level (.object members) =
      '\x7b' :: ((layout.items (level + 1) (members.map (writeMember layout (level + 1)))).drop 1 ++
        blanks ++ ['\x7d']) := by
  cases members with
  | nil => exact ⟨[], blank_nil, by simp [write, Layout.items]⟩
  | cons member members =>
      obtain ⟨key, value⟩ := member
      refine ⟨layout.lead level, blank_lead layout level, ?_⟩
      simp [write, writeMembers_eq_items, writeMember, Layout.items]

theorem encode_object (members : List (String × Value)) (rest : List UInt8) :
    ∃ after, encode (write layout level (.object members)) ++ rest = byte '\x7b' :: after := by
  obtain ⟨_, -, written⟩ := write_object layout level members
  rw [written]
  exact ⟨_, rfl⟩

theorem items_cons_drop (isFirst : Bool) (item : List Char) (items : List (List Char)) :
    (layout.items level (item :: items)).drop isFirst.toNat =
      (',' :: layout.lead level).drop isFirst.toNat ++ (item ++ layout.items level items) := by
  cases isFirst <;> simp [Layout.items]

/-- Before the end of a list or an object there are at least as many bytes as items. -/
theorem length_items_le (items : List (List Char)) {bytes : List UInt8} (closes : bytes ≠ []) :
    items.length ≤ (encode ((layout.items level items).drop 1) ++ bytes).length := by
  have commas : items.length ≤ (layout.items level items).length := by
    induction items with
    | nil => exact Nat.zero_le _
    | cons item items inductionHypothesis =>
        simp only [Layout.items, List.flatMap_cons, List.length_append, List.length_cons]
          at inductionHypothesis ⊢
        omega
  have written := Utf8.length_le_length_encode ((layout.items level items).drop 1)
  have := List.length_pos_iff.mpr closes
  rw [List.length_drop] at written
  rw [List.length_append]
  omega

theorem ends_items (items : List (List Char)) (ends : Ends rest) :
    Ends (encode (layout.items level items) ++ rest) := by
  cases items with
  | nil => exact ends
  | cons item items => exact ends_cons (by decide)

end Items

/-! ## Readers of values -/

/-- The reader passes over the written form of the value and over blanks before it, and
answers with the element. -/
def Reads (read : Reader α) (value : Value) (element : α) : Prop :=
  ∀ (layout : Layout) (level : Nat) {blanks : List Char} {rest : List UInt8},
    Blank blanks → Ends rest →
      read.run (encode blanks ++ (encode (write layout level value) ++ rest)) =
        .ok (element, rest)

namespace Reads

variable {read : Reader α} {value : Value} {element : α}

/-- An element that is read is put to use. -/
theorem map (reads : Reads read value element) (use : α → β) :
    Reads (read >>= fun found => pure (use found)) value (use element) := by
  intro layout level blanks rest blank ends
  rw [Reader.run_bind_of_ok (reads layout level blank ends)]
  rfl

/-- Where no blanks come first, the written form is all that is passed over. -/
theorem run (reads : Reads read value element) (layout : Layout) (level : Nat)
    (ends : Ends rest) :
    read.run (encode (write layout level value) ++ rest) = .ok (element, rest) :=
  reads layout level blank_nil ends

end Reads

theorem encode_writeString (text : String) (rest : List UInt8) :
    ∃ after, encode (writeString text) ++ rest = byte '"' :: after :=
  ⟨_, rfl⟩

theorem isBlank_of_isDigit {next : UInt8} (digit : isDigit next) : isBlank next = false := by
  rw [← Bool.not_eq_true, isBlank]
  simp only [Bool.or_eq_true, beq_iff_eq]
  rintro (((rfl | rfl) | rfl) | rfl) <;> exact absurd digit (by decide)

theorem reads_stringOr (expected text : String) :
    Reads (Reader.stringOr expected) (.string text) text := by
  intro layout level blanks rest blank ends
  obtain ⟨after, begins⟩ := encode_writeString text rest
  have ahead := Reader.run_peek blank begins (by decide)
  rw [write, Reader.stringOr, Reader.run_bind_of_ok ahead, if_pos (by simp), Reader.run_string]

theorem reads_natural (expected : String) {value : Nat} (fits : value < wordBound) :
    Reads (Reader.natural expected) (.integer value) value := by
  intro layout level blanks rest blank ends
  have written : write layout level (.integer value) = value.repr.toList := by
    rw [write]
    rfl
  obtain ⟨next, more, digits, digit, -⟩ := encode_repr value
  have begins : encode value.repr.toList ++ rest = next :: (more ++ rest) := by
    rw [digits, List.cons_append]
  have ahead := Reader.run_peek blank begins (isBlank_of_isDigit digit)
  have number := Reader.run_number (Nat.le_sub_one_of_lt fits) ends
  rw [written, Reader.natural, Reader.run_bind_of_ok ahead]
  simp only [digit, Bool.or_true, if_true]
  rw [Reader.run_bind_of_ok number]
  rfl

theorem reads_variant {ofName? : String → Option α} {name : String} {names : List String}
    {kind : α} (named : ofName? name = some kind) :
    Reads (Reader.variant ofName? names) (.string name) kind := by
  intro layout level blanks rest blank ends
  obtain ⟨after, begins⟩ := encode_writeString name rest
  have ahead := Reader.run_peek blank begins (by decide)
  have inner := (reads_stringOr "variant identifier" name).run layout level ends
  rw [write] at inner ⊢
  rw [Reader.variant, Reader.run_bind_of_ok ahead]
  simp only [beq_self_eq_true, if_true]
  rw [Reader.run_bind_of_ok inner, named]
  rfl

/-! ## Lists -/

namespace Reader

/-- The comma before an item that is not the first one is passed over, and so are the
blanks. -/
theorem run_nextElement (isFirst : Bool) (blank : Blank blanks) {next : UInt8}
    {after : List UInt8} (begins : bytes = next :: after) (noBlank : isBlank next = false)
    (noEnd : next ≠ byte ']') :
    (nextElement isFirst).run (encode ((',' :: blanks).drop isFirst.toNat) ++ bytes) =
      .ok (true, bytes) := by
  have ahead := run_peek blank begins noBlank
  cases isFirst with
  | true =>
      rw [nextElement, Bool.toNat_true, List.drop_one, List.tail_cons, run_bind_of_ok ahead]
      simp [noEnd]
  | false =>
      change (nextElement false).run (byte ',' :: (encode blanks ++ bytes)) = _
      rw [nextElement, run_bind_of_ok run_peek_comma]
      simp [ahead, noEnd, show byte ',' ≠ byte ']' by decide]

theorem run_nextElement_end (isFirst : Bool) (blank : Blank blanks) :
    (nextElement isFirst).run (encode blanks ++ byte ']' :: rest) =
      .ok (false, byte ']' :: rest) := by
  rw [nextElement, run_bind_of_ok (run_peek blank rfl (by decide))]
  simp

theorem run_endList : endList.run (byte ']' :: rest) = .ok ((), rest) :=
  rfl

/-- The elements of a list are read one after another, up to its end. -/
theorem run_elementsFrom (layout : Layout) (level : Nat) (done : List α) {element : Reader α}
    {toValue : α → Value} {elements : List α} {after closing : List UInt8} {bound : Nat}
    (reads : ∀ x ∈ elements, Reads element (toValue x) x)
    (objects : ∀ x, ∃ members, toValue x = .object members) (enough : elements.length < bound)
    (ends : Ends after)
    (closes : ∀ isFirst, (nextElement isFirst).run after = .ok (false, closing)) :
    (elementsFrom element bound done).run
        (encode ((layout.items level (elements.map (write layout level ∘ toValue))).drop
          done.isEmpty.toNat) ++ after) =
      .ok (done.reverse ++ elements, closing) := by
  induction elements generalizing bound done with
  | nil =>
      obtain ⟨bound, rfl⟩ := Nat.exists_eq_add_of_lt enough
      simp [Layout.items, elementsFrom, run_bind_of_ok (closes _)]
  | cons x elements inductionHypothesis =>
      obtain ⟨bound, rfl⟩ := Nat.exists_eq_add_of_lt enough
      rw [List.forall_mem_cons] at reads
      obtain ⟨members, isObject⟩ := objects x
      obtain ⟨_, begins⟩ := encode_object layout level members
        (encode (layout.items level (elements.map (write layout level ∘ toValue))) ++ after)
      rw [← isObject] at begins
      have endsItems := ends_items layout level
        (elements.map (write layout level ∘ toValue)) ends
      have next := run_nextElement done.isEmpty (blank_lead layout level) begins
        (by decide) (by decide)
      have later := inductionHypothesis (x :: done) reads.2
        (Nat.lt_add_right bound (Nat.lt_add_one elements.length))
      rw [List.map_cons, items_cons_drop, Function.comp_apply, List.length_cons]
      simp only [Utf8.encode_append, List.append_assoc]
      rw [elementsFrom, run_bind_of_ok next, if_pos rfl,
        run_bind_of_ok (reads.1.run layout level endsItems)]
      simpa using later

end Reader

/-- A list of objects is read as it was written if each of them is. -/
theorem reads_list {element : Reader α} {toValue : α → Value} {elements : List α}
    (reads : ∀ x ∈ elements, Reads element (toValue x) x)
    (objects : ∀ x, ∃ members, toValue x = .object members) :
    Reads (Reader.list element) (.list (elements.map toValue)) elements := by
  intro layout level blanks rest blank ends
  obtain ⟨lead, blankLead, written⟩ := write_list layout level (elements.map toValue)
  rw [List.map_map] at written
  have text : encode (write layout level (.list (elements.map toValue))) ++ rest =
      byte '[' :: (encode ((layout.items (level + 1)
          (elements.map (write layout (level + 1) ∘ toValue))).drop 1) ++
        (encode lead ++ byte ']' :: rest)) := by
    simp [written, encodeChar_ascii]
  have closes : encode lead ++ byte ']' :: rest ≠ [] := by simp
  have enough := length_items_le layout (level + 1)
    (elements.map (write layout (level + 1) ∘ toValue)) closes
  rw [List.length_map] at enough
  have endsItems : Ends (encode lead ++ byte ']' :: rest) :=
    ends_blank blankLead (ends_cons (by decide))
  have within := Reader.run_elementsFrom layout (level + 1) [] reads objects
    (Nat.lt_add_one_of_le enough) endsItems
    fun isFirst => Reader.run_nextElement_end isFirst blankLead
  rw [List.isEmpty_nil, Bool.toNat_true, List.reverse_nil, List.nil_append] at within
  rw [text, Reader.list, Reader.run_bind_of_ok (Reader.run_peek blank rfl (by decide)),
    if_pos (by decide), Reader.run_bind_of_ok (Reader.run_skip _),
    Reader.run_bind_of_ok Reader.run_get, Reader.run_bind_of_ok within,
    Reader.run_bind_of_ok Reader.run_endList]
  rfl

/-! ## Objects -/

/-- Members give the fields one after another and take the data from `start` to
`finish`. -/
inductive Fills : List (Field α) → List (String × Value) → α → α → Prop
  | nil {data : α} : Fills [] [] data data
  | cons {field : Field α} {fields : List (Field α)} {value : Value}
      {members : List (String × Value)} {start middle finish : α}
      (reads : Reads (field.read start) value middle) (fills : Fills fields members middle finish) :
      Fills (field :: fields) ((field.name, value) :: members) start finish

namespace Reader

/-- The comma before a member that is not the first one is passed over, and so are the
blanks. -/
theorem run_nextMember (isFirst : Bool) (blank : Blank blanks) {after : List UInt8}
    (begins : bytes = byte '"' :: after) :
    (nextMember isFirst).run (encode ((',' :: blanks).drop isFirst.toNat) ++ bytes) =
      .ok (true, bytes) := by
  have ahead := run_peek blank begins (by decide)
  cases isFirst with
  | true =>
      rw [nextMember, Bool.toNat_true, List.drop_one, List.tail_cons, run_bind_of_ok ahead]
      simp [show byte '"' ≠ byte '\x7d' by decide]
  | false =>
      change (nextMember false).run (byte ',' :: (encode blanks ++ bytes)) = _
      rw [nextMember, run_bind_of_ok run_peek_comma]
      simp [ahead, show byte ',' ≠ byte '\x7d' by decide]

theorem run_nextMember_end (isFirst : Bool) (blank : Blank blanks) :
    (nextMember isFirst).run (encode blanks ++ byte '\x7d' :: rest) =
      .ok (false, byte '\x7d' :: rest) := by
  rw [nextMember, run_bind_of_ok (run_peek blank rfl (by decide))]
  simp

theorem run_endObject : endObject.run (byte '\x7d' :: rest) = .ok ((), rest) :=
  rfl

theorem run_colon : colon.run (byte ':' :: rest) = .ok ((), rest) :=
  rfl

end Reader

namespace Shape

variable {shape : Shape α}

/-- The members of an object are read one after another, up to its end. -/
theorem run_readMembers (layout : Layout) (level : Nat) (past : List (Field α))
    (given : List String) (isFirst : Bool) {fields : List (Field α)}
    {members : List (String × Value)} {start finish : α} {after closing : List UInt8}
    {bound : Nat} (nodup : (shape.fields.map (·.name)).Nodup)
    (fills : Fills fields members start finish) (split : shape.fields = past ++ fields)
    (isGiven : ∀ name, name ∈ given ↔ name ∈ past.map (·.name)) (enough : members.length < bound)
    (ends : Ends after)
    (closes : ∀ isFirst, (Reader.nextMember isFirst).run after = .ok (false, closing)) :
    (shape.readMembers bound isFirst given start).run
        (encode ((layout.items level (members.map (writeMember layout level))).drop
          isFirst.toNat) ++ after) =
      .ok (finish, closing) := by
  induction fills generalizing past given isFirst bound with
  | nil =>
      obtain ⟨bound, rfl⟩ := Nat.exists_eq_add_of_lt enough
      have complete : shape.fields.find? (!given.contains ·.name) = none := by
        rw [List.find?_eq_none, split, List.append_nil]
        intro field known
        simpa [isGiven] using ⟨field, known, rfl⟩
      rw [List.map_nil, Layout.items, List.flatMap_nil, List.drop_nil, Utf8.encode_nil,
        List.nil_append, readMembers, Reader.run_bind_of_ok (closes _), if_neg (by decide),
        complete]
      rfl
  | @cons field fields value members start middle finish reads fills inductionHypothesis =>
      obtain ⟨bound, rfl⟩ := Nat.exists_eq_add_of_lt enough
      have fresh : field.name ∉ past.map (·.name) := by
        rw [split, List.map_append, List.map_cons] at nodup
        exact fun known => List.disjoint_of_nodup_append nodup known List.mem_cons_self
      have found : shape.fields.find? (·.name == field.name) = some field := by
        rw [split, List.find?_append, List.find?_eq_none.mpr, Option.none_or,
          List.find?_cons_of_pos (by simp)]
        intro other known same
        exact fresh (List.mem_map.mpr ⟨other, known, by simpa using same⟩)
      have isNew : given.contains field.name = false := by
        simpa [isGiven] using fresh
      obtain ⟨blanks, blank, colon⟩ := colon_eq layout
      have endsItems := ends_items layout level (members.map (writeMember layout level)) ends
      have later := inductionHypothesis (past ++ [field]) (field.name :: given) false
        (by simp [split]) (by simp [isGiven, or_comm])
        (Nat.lt_add_right bound (Nat.lt_add_one members.length))
      obtain ⟨_, begins⟩ := encode_writeString field.name (byte ':' :: (encode blanks ++
        (encode (write layout level value) ++
          (encode (layout.items level (members.map (writeMember layout level))) ++ after))))
      have next := Reader.run_nextMember isFirst (blank_lead layout level) begins
      rw [List.map_cons, items_cons_drop, writeMember, colon]
      have colonByte : Utf8.encodeChar ':' = [byte ':'] := rfl
      simp only [Utf8.encode_append, Utf8.encode_cons, colonByte, List.append_assoc,
        List.cons_append, List.nil_append]
      rw [List.length_cons, readMembers, Reader.run_bind_of_ok next, if_pos rfl,
        Reader.run_bind_of_ok (Reader.run_string _), found]
      simp only [isNew, Bool.false_eq_true, if_false]
      rw [Reader.run_bind_of_ok Reader.run_colon,
        Reader.run_bind_of_ok (reads layout level blank endsItems)]
      exact later

/-- An object of a shape is read as it was written. -/
theorem reads_read {members : List (String × Value)} {start finish : α}
    (nodup : (shape.fields.map (·.name)).Nodup) (fills : Fills shape.fields members start finish) :
    Reads (shape.read start) (.object members) finish := by
  intro layout level blanks rest blank ends
  obtain ⟨lead, blankLead, written⟩ := write_object layout level members
  have text : encode (write layout level (.object members)) ++ rest =
      byte '\x7b' :: (encode ((layout.items (level + 1)
          (members.map (writeMember layout (level + 1)))).drop 1) ++
        (encode lead ++ byte '\x7d' :: rest)) := by
    simp [written, encodeChar_ascii]
  have closes : encode lead ++ byte '\x7d' :: rest ≠ [] := by simp
  have enough := length_items_le layout (level + 1)
    (members.map (writeMember layout (level + 1))) closes
  rw [List.length_map] at enough
  have endsItems : Ends (encode lead ++ byte '\x7d' :: rest) :=
    ends_blank blankLead (ends_cons (by decide))
  have within := run_readMembers layout (level + 1) [] [] true nodup fills rfl (by simp)
    (Nat.lt_add_one_of_le enough) endsItems
    fun isFirst => Reader.run_nextMember_end isFirst blankLead
  rw [Bool.toNat_true] at within
  rw [text, read, Reader.run_bind_of_ok (Reader.run_peek blank rfl (by decide))]
  simp only [show (byte '\x7b' == byte '[') = false by decide, Bool.false_eq_true, if_false,
    beq_self_eq_true, if_true]
  rw [Reader.run_bind_of_ok (Reader.run_skip _),
    Reader.run_bind_of_ok Reader.run_get, Reader.run_bind_of_ok within,
    Reader.run_bind_of_ok Reader.run_endObject]
  rfl

end Shape

end ProgramGraph.Json

import Curation.Json.Reader
import Curation.Json.Writer
import Curation.Proofs.Number.Digits

/-!
# Reading written JSON

A value that is written with one element or member to a line is read back as it was, if it holds no
doubles and if its integers fit 64 bits.

* `Json.isExact`: the values that are told exactly by their written form.
* `Json.readString?_written`: a string is read up to the quote that closes it.
* `Json.read?_pretty`: a value is read back.
* `Json.parse?_pretty`: a document in sorted form is read back.
-/

namespace Curation.Json

mutual

/-- Whether a value holds no doubles, and integers of 64 bits only. -/
def isExact : Json → Bool
  | .integer n => -9223372036854775808 ≤ n && n < 18446744073709551616
  | .double _ => false
  | .illegible => false
  | .array elements => areExact elements
  | .object members => membersAreExact members
  | _ => true

/-- Whether every element passes `isExact`. -/
def areExact : List Json → Bool
  | [] => true
  | value :: elements => value.isExact && areExact elements

/-- Whether the value of every member passes `isExact`. -/
def membersAreExact : List (String × Json) → Bool
  | [] => true
  | (_, value) :: members => value.isExact && membersAreExact members

end

section Strings

/-- A hexadecimal digit is read as its value. -/
theorem hexDigit?_digitChar : ∀ n < 16, hexDigit? (Nat.digitChar n) = some n := by decide

/-- The four digits of an escape for a control character are read as its code. -/
theorem readHex?_hexByte {n : Nat} (h : n < 256) (rest : List Char) :
    readHex? ('0' :: '0' :: (hexByte n ++ rest)) = some (n, rest) := by
  have hzero : hexDigit? '0' = some 0 := rfl
  simp only [hexByte, List.cons_append, List.nil_append, readHex?, hzero,
    hexDigit?_digitChar (n / 16) (by omega), hexDigit?_digitChar (n % 16) (by omega),
    Option.bind_eq_bind, Option.bind_some, Option.some.injEq, Prod.mk.injEq, and_true]
  omega

/-- A written character is read in one step. -/
theorem readString?_writtenChar (c : Char) (fuel : Nat) (before rest : List Char) :
    readString? (fuel + 1) (some before) (writtenChar c ++ rest) =
      readString? fuel (some (c :: before)) rest := by
  -- the short escapes first, in the order in which they are asked for
  rw [writtenChar]
  split
  · next h => rcases h with rfl | rfl <;> rfl
  split
  · next h => rw [h]; rfl
  split
  · next h => rw [h]; rfl
  split
  · next h => rw [h]; rfl
  split
  · next h => rw [← Char.ofNat_toNat c, h]; rfl
  split
  · next h => rw [← Char.ofNat_toNat c, h]; rfl
  split
  · next h =>
    -- control characters are written with four hexadecimal digits
    have hhex := readHex?_hexByte (n := c.toNat) (by omega) rest
    have hunits :
        readCodeUnits? ('0' :: '0' :: (hexByte c.toNat ++ rest)) = some (some c, rest) := by
      rw [readCodeUnits?, hhex]
      simp only [Option.bind_eq_bind, Option.bind_some, Char.ofNat_toNat]
      rw [if_pos (Or.inl (by omega))]
    show (readCodeUnits? ('0' :: '0' :: (hexByte c.toNat ++ rest))).bind _ = _
    rw [hunits]
    rfl
  -- any other character stands for itself
  · next h1 h2 h3 h4 h5 h6 h7 =>
    rw [not_or] at h1
    rw [List.singleton_append, readString?, if_neg h1.1, if_neg h1.2, if_neg h7]
    rfl

theorem writtenChar_ne_nil (c : Char) : writtenChar c ≠ [] := by
  rw [writtenChar]
  repeat' split
  all_goals simp

/-- A text is not longer than what is written for it. -/
theorem length_le_length_written (s : List Char) :
    s.length ≤ (s.flatMap writtenChar).length := by
  induction s with
  | nil => exact Nat.le_refl 0
  | cons c s ih =>
    have hpos := List.length_pos_iff.mpr (writtenChar_ne_nil c)
    rw [List.flatMap_cons, List.length_append, List.length_cons]
    omega

/-- A string is read up to the quote that closes it. -/
theorem readString?_written (s before rest : List Char) {fuel : Nat} (h : s.length < fuel) :
    readString? fuel (some before) (s.flatMap writtenChar ++ '"' :: rest) =
      some (some (String.ofList (before.reverse ++ s)), rest) := by
  induction s generalizing fuel before with
  | nil =>
    obtain ⟨fuel, rfl⟩ := Nat.exists_eq_add_one_of_ne_zero (Nat.ne_of_gt h)
    rw [List.append_nil]
    rfl
  | cons c s ih =>
    obtain ⟨fuel, rfl⟩ := Nat.exists_eq_add_one_of_ne_zero (Nat.ne_of_gt (Nat.zero_lt_of_lt h))
    rw [List.flatMap_cons, List.append_assoc, readString?_writtenChar,
      ih (c :: before) (Nat.lt_of_succ_lt_succ h), List.reverse_cons, List.append_assoc]
    rfl

/-- What is written for a text is read up to the closing quote, and gives the text. -/
theorem readString?_toList (text : String) (rest : List Char) :
    readString? ((text.toList.flatMap writtenChar ++ '"' :: rest).length + 1) (some [])
        (text.toList.flatMap writtenChar ++ '"' :: rest) = some (some text, rest) := by
  have hlength := length_le_length_written text.toList
  rw [readString?_written _ _ _ (by rw [List.length_append]; omega), List.reverse_nil,
    List.nil_append, String.ofList_toList]

end Strings

section Numbers

/-- What follows a number goes on with neither a digit nor a fraction nor an exponent. -/
def EndsNumber (rest : List Char) : Prop :=
  ∀ c ∈ rest.head?, ¬ c.isDigit ∧ c ≠ '.' ∧ c ≠ 'e' ∧ c ≠ 'E'

/-- Reading more digits makes a number no smaller. -/
theorem le_foldl_digits (s : List Char) (n : Nat) :
    n ≤ s.foldl (fun n c => 10 * n + Digits.digitValue c) n := by
  induction s generalizing n with
  | nil => exact Nat.le_refl n
  | cons c s ih =>
    have hle := ih (10 * n + Digits.digitValue c)
    rw [List.foldl_cons]
    omega

/-- All digits of a number below 2⁶⁴ are read. -/
theorem fitDigits_eq {s : List Char} {n : Nat}
    (h : s.foldl (fun n c => 10 * n + Digits.digitValue c) n < Nat.pow 2 64) :
    fitDigits n s = (s.foldl (fun n c => 10 * n + Digits.digitValue c) n, []) := by
  induction s generalizing n with
  | nil => rfl
  | cons c s ih =>
    rw [List.foldl_cons] at h ⊢
    have hle := le_foldl_digits s (10 * n + Digits.digitValue c)
    rw [fitDigits, if_pos (Nat.lt_of_le_of_lt hle h), ih h]

/-- All digits of a number below 2⁶⁴ fit. -/
theorem fitDigits_ofNat {n : Nat} (h : n < Nat.pow 2 64) :
    fitDigits 0 (Digits.ofNat n) = (n, []) := by
  have hvalue := Digits.value_ofNat n
  rw [Digits.value] at hvalue
  rw [fitDigits_eq (by rwa [hvalue]), hvalue]

/-- A written number does not start with a zero that another digit follows. -/
theorem not_isMalformed_ofNat (n : Nat) :
    ¬ ((Digits.ofNat n).isEmpty ||
      ((Digits.ofNat n).head? == some '0' && 1 < (Digits.ofNat n).length)) := by
  by_cases h : n = 0
  · rw [h]
    decide
  · simp [Digits.ofNat_ne_nil, Digits.head?_ofNat_ne_zero h]

section

variable {rest : List Char} (hrest : EndsNumber rest)

include hrest

/-- No fraction is read where a number ends. -/
theorem readFraction?_of_endsNumber : readFraction? rest = some (none, rest) := by
  rw [readFraction?]
  intro s heq
  rw [heq] at hrest
  exact (hrest '.' rfl).2.1 rfl

theorem readExponent?_of_endsNumber : readExponent? rest = some (none, rest) := by
  cases rest with
  | nil => rfl
  | cons c rest =>
    obtain ⟨-, -, hlower, hupper⟩ := hrest c rfl
    rw [readExponent?, if_neg (not_or.mpr ⟨hlower, hupper⟩)]

/-- A number without fraction and exponent is read up to its last digit. -/
theorem readNumber?_ofNat (n : Nat) :
    readNumber? (Digits.ofNat n ++ rest) =
      some (numberOf false (Digits.ofNat n) none none, rest) := by
  have hdigits : ∀ c ∈ Digits.ofNat n, c.isDigit := fun c => Digits.isDigit_of_mem_ofNat
  have hends : ∀ c ∈ rest.head?, ¬ c.isDigit := fun c hc => (hrest c hc).1
  rw [readNumber?, Digits.takeWhile_isDigit_append hdigits hends,
    Digits.dropWhile_isDigit_append hdigits hends, if_neg (not_isMalformed_ofNat n),
    readFraction?_of_endsNumber hrest]
  · simp only [Option.bind_eq_bind, Option.bind_some, readExponent?_of_endsNumber hrest]
  -- a digit comes first, and no sign
  · intro s heq
    obtain ⟨c, digits, hcons⟩ := List.exists_cons_of_ne_nil (Digits.ofNat_ne_nil n)
    rw [hcons] at heq hdigits
    cases heq
    exact absurd (hdigits '-' List.mem_cons_self) (by decide)

/-- A dash with the digits of a number behind it is read as a negative number. -/
theorem readNumber?_dash_ofNat (n : Nat) :
    readNumber? ('-' :: (Digits.ofNat n ++ rest)) =
      some (numberOf true (Digits.ofNat n) none none, rest) := by
  have hdigits : ∀ c ∈ Digits.ofNat n, c.isDigit := fun c => Digits.isDigit_of_mem_ofNat
  have hends : ∀ c ∈ rest.head?, ¬ c.isDigit := fun c hc => (hrest c hc).1
  rw [readNumber?, Digits.takeWhile_isDigit_append hdigits hends,
    Digits.dropWhile_isDigit_append hdigits hends, if_neg (not_isMalformed_ofNat n),
    readFraction?_of_endsNumber hrest]
  simp only [Option.bind_eq_bind, Option.bind_some, readExponent?_of_endsNumber hrest]

end

/-- The number that the written form of an integer of 64 bits denotes. -/
theorem numberOf_ofNat {n : Nat} (h : n < Nat.pow 2 64) :
    numberOf false (Digits.ofNat n) none none = .integer n := by
  rw [numberOf, fitDigits_ofNat h]
  rfl

/-- A negative integer that is not below -2⁶³ is read as itself. -/
theorem numberOf_dash_ofNat {n : Nat} (hpos : n ≠ 0) (h : n ≤ Nat.pow 2 63) :
    numberOf true (Digits.ofNat n) none none = .integer (-n) := by
  rw [numberOf, fitDigits_ofNat (Nat.lt_of_le_of_lt h (by decide))]
  have hnot : ¬ (n = 0 ∨ Nat.pow 2 63 < n) := by
    rw [not_or]
    exact ⟨hpos, Nat.not_lt.mpr h⟩
  simp [hnot]

/-- An integer of 64 bits is read back. -/
theorem readNumber?_toString {n : Int} (h : isExact (.integer n)) {rest : List Char}
    (hrest : EndsNumber rest) :
    readNumber? ((toString n).toList ++ rest) = some (.integer n, rest) := by
  rw [isExact, Bool.and_eq_true, decide_eq_true_eq, decide_eq_true_eq] at h
  rw [Int.toString_eq_repr, Int.repr_eq_if]
  split
  -- a number from zero on fits 64 bits
  · next hsign =>
    have hread := readNumber?_ofNat hrest n.toNat
    have hlt : n.toNat < 18446744073709551616 := by omega
    rw [numberOf_ofNat hlt, Int.toNat_of_nonneg hsign] at hread
    rw [Nat.toList_repr]
    exact hread
  -- a negative number fits a signed word
  · next hsign =>
    have hread := readNumber?_dash_ofNat hrest (-n).toNat
    have hle : (-n).toNat ≤ 9223372036854775808 := by omega
    rw [numberOf_dash_ofNat (by omega) hle, Int.toNat_of_nonneg (by omega), Int.neg_neg]
      at hread
    rw [String.toList_append, Nat.toList_repr]
    exact hread

end Numbers

section Values

/-- Whether a character stands between the parts of a text without meaning. -/
def isSpace (c : Char) : Bool := c == ' ' || c == '\n' || c == '\t' || c == '\r'

/-- Blanks in front of a text are skipped. -/
theorem skipBlanks_append {blanks : List Char} (h : ∀ c ∈ blanks, isSpace c) (s : List Char) :
    skipBlanks (blanks ++ s) = skipBlanks s :=
  List.dropWhile_append_of_pos h

theorem skipBlanks_cons {c : Char} (h : isSpace c = false) (s : List Char) :
    skipBlanks (c :: s) = c :: s :=
  List.dropWhile_cons_of_neg (by simpa [isSpace] using h)

theorem isSpace_of_mem_newline {depth : Nat} {c : Char} (h : c ∈ (newline depth).toList) :
    isSpace c := by
  rw [newline, String.toList_ofList, List.mem_cons] at h
  rcases h with rfl | h
  · rfl
  · rw [List.eq_of_mem_replicate h]
    rfl

section Blanks

variable {blanks : List Char} (h : ∀ c ∈ blanks, isSpace c) (fuel : Nat) (s : List Char)

include h

/-- A value is read behind blanks as it is without them. -/
theorem readValue?_append : readValue? fuel (blanks ++ s) = readValue? fuel s := by
  cases fuel with
  | zero => rfl
  | succ fuel => rw [readValue?, readValue?, skipBlanks_append h]

theorem readElements?_append (before : List Json) :
    readElements? fuel before (blanks ++ s) = readElements? fuel before s := by
  cases fuel with
  | zero => rfl
  | succ fuel => rw [readElements?, readElements?, readValue?_append h]

theorem readMembers?_append (before : Option (List (String × Json))) :
    readMembers? fuel before (blanks ++ s) = readMembers? fuel before s := by
  cases fuel with
  | zero => rfl
  | succ fuel => rw [readMembers?, readMembers?, skipBlanks_append h]

end Blanks

theorem readValue?_space (fuel : Nat) (s : List Char) :
    readValue? fuel (' ' :: s) = readValue? fuel s := by
  have hblanks : ∀ c ∈ [' '], isSpace c := List.forall_mem_singleton.mpr rfl
  exact readValue?_append hblanks fuel s

theorem readElements?_newline (depth fuel : Nat) (before : List Json) (s : List Char) :
    readElements? fuel before ((newline depth).toList ++ s) = readElements? fuel before s :=
  readElements?_append (fun _ => isSpace_of_mem_newline) fuel s before

theorem readMembers?_newline (depth fuel : Nat) (before : Option (List (String × Json)))
    (s : List Char) :
    readMembers? fuel before ((newline depth).toList ++ s) = readMembers? fuel before s :=
  readMembers?_append (fun _ => isSpace_of_mem_newline) fuel s before

/-- Only blanks are skipped. -/
theorem exists_blanks (s : List Char) :
    ∃ blanks, (∀ c ∈ blanks, isSpace c) ∧ blanks ++ skipBlanks s = s :=
  ⟨s.takeWhile isSpace, List.all_eq_true.mp List.all_takeWhile, List.takeWhile_append_dropWhile⟩

theorem readElements?_skipBlanks (fuel : Nat) (before : List Json) (s : List Char) :
    readElements? fuel before (skipBlanks s) = readElements? fuel before s := by
  obtain ⟨blanks, hblanks, hs⟩ := exists_blanks s
  rw [← readElements?_append hblanks, hs]

theorem readMembers?_skipBlanks (fuel : Nat) (before : Option (List (String × Json)))
    (s : List Char) : readMembers? fuel before (skipBlanks s) = readMembers? fuel before s := by
  obtain ⟨blanks, hblanks, hs⟩ := exists_blanks s
  rw [← readMembers?_append hblanks, hs]

section Steps

variable {fuel : Nat} {s t u rest : List Char} {value : Json}

/-- No value starts with a bracket that closes an array. -/
theorem readValue?_bracket (h : skipBlanks s = ']' :: t) : readValue? fuel s = none := by
  cases fuel with
  | zero => rfl
  | succ fuel =>
    rw [readValue?, h]
    rfl

/-- The element before the closing bracket is the last one that is read. -/
theorem readElements?_last (before : List Json) (hvalue : readValue? fuel s = some (value, t))
    (hclose : skipBlanks t = ']' :: rest) :
    readElements? (fuel + 1) before s = some ((value :: before).reverse, rest) := by
  rw [readElements?, hvalue]
  simp only [Option.bind_eq_bind, Option.bind_some, hclose]

/-- Behind an element and a comma, the elements that follow are read. -/
theorem readElements?_next (before : List Json) (hvalue : readValue? fuel s = some (value, t))
    (hcomma : skipBlanks t = ',' :: u) :
    readElements? (fuel + 1) before s = readElements? fuel (value :: before) u := by
  rw [readElements?, hvalue]
  simp only [Option.bind_eq_bind, Option.bind_some, hcomma]

/-- An array is read with the elements up to its closing bracket. -/
theorem readValue?_array {elements : List Json}
    (h : readElements? fuel [] s = some (elements, rest)) :
    readValue? (fuel + 1) ('[' :: s) = some (.array elements, rest) := by
  rw [readValue?, skipBlanks_cons rfl]
  simp only
  split
  -- a closing bracket right away, which no element begins with
  · next u hclose =>
    cases fuel with
    | zero => cases h
    | succ fuel =>
      rw [readElements?, readValue?_bracket hclose] at h
      cases h
  · rw [readElements?_skipBlanks, h]
    rfl

theorem toList_writtenString_append (text : String) (rest : List Char) :
    (writtenString text).toList ++ rest =
      '"' :: (text.toList.flatMap writtenChar ++ '"' :: rest) := by
  rw [writtenString, String.toList_ofList, List.cons_append, List.append_assoc]
  rfl

/-- The member before the closing brace is the last one that is read. -/
theorem readMembers?_last (before : List (String × Json)) (name : String)
    (hvalue : readValue? fuel s = some (value, t)) (hclose : skipBlanks t = '\x7d' :: rest) :
    readMembers? (fuel + 1) (some before) ((writtenString name).toList ++ ':' :: s) =
      some (some ((name, value) :: before).reverse, rest) := by
  have hcolon : skipBlanks (':' :: s) = ':' :: s := skipBlanks_cons rfl s
  rw [toList_writtenString_append, readMembers?, skipBlanks_cons rfl]
  simp only [readString?_toList, Option.bind_eq_bind, Option.bind_some, hcolon, hvalue, hclose]
  rfl

/-- Behind a member and a comma, the members that follow are read. -/
theorem readMembers?_next (before : List (String × Json)) (name : String)
    (hvalue : readValue? fuel s = some (value, t)) (hcomma : skipBlanks t = ',' :: u) :
    readMembers? (fuel + 1) (some before) ((writtenString name).toList ++ ':' :: s) =
      readMembers? fuel (some ((name, value) :: before)) u := by
  have hcolon : skipBlanks (':' :: s) = ':' :: s := skipBlanks_cons rfl s
  rw [toList_writtenString_append, readMembers?, skipBlanks_cons rfl]
  simp only [readString?_toList, Option.bind_eq_bind, Option.bind_some, hcolon, hvalue, hcomma]
  rfl

/-- An object is read with the members up to its closing brace. -/
theorem readValue?_object {members : List (String × Json)}
    (h : readMembers? fuel (some []) s = some (some members, rest)) :
    readValue? (fuel + 1) ('\x7b' :: s) = some (.object members, rest) := by
  rw [readValue?, skipBlanks_cons rfl]
  simp only
  split
  -- a closing brace right away, which no member begins with
  · next u hclose =>
    cases fuel with
    | zero => cases h
    | succ fuel =>
      rw [readMembers?, hclose] at h
      cases h
  · rw [readMembers?_skipBlanks, h]
    rfl

end Steps

section Scalars

theorem readValue?_null (fuel : Nat) (rest : List Char) :
    readValue? (fuel + 1) ("null".toList ++ rest) = some (.null, rest) := by
  rw [readValue?, show skipBlanks ("null".toList ++ rest) = _ from skipBlanks_cons rfl _]
  rfl

theorem readValue?_bool (b : Bool) (fuel : Nat) (rest : List Char) :
    readValue? (fuel + 1) ((writtenScalar (.bool b)).toList ++ rest) = some (.bool b, rest) := by
  cases b with
  | false =>
    rw [writtenScalar, readValue?,
      show skipBlanks ("false".toList ++ rest) = _ from skipBlanks_cons rfl _]
    rfl
  | true =>
    rw [writtenScalar, readValue?,
      show skipBlanks ("true".toList ++ rest) = _ from skipBlanks_cons rfl _]
    rfl

/-- A written string is read back. -/
theorem readValue?_string (fuel : Nat) (text : String) (rest : List Char) :
    readValue? (fuel + 1) ((writtenString text).toList ++ rest) = some (.string text, rest) := by
  rw [toList_writtenString_append, readValue?, skipBlanks_cons rfl]
  simp only [readString?_toList]
  rfl

/-- A value that starts with a digit or a dash is a number. -/
theorem readValue?_of_isDigit {c : Char} (h : c = '-' ∨ c.isDigit) (fuel : Nat) (s : List Char) :
    readValue? (fuel + 1) (c :: s) = readNumber? (c :: s) := by
  have hspace : isSpace c = false := by
    rcases h with rfl | h
    · rfl
    · rw [Bool.eq_false_iff]
      intro hspace
      simp only [isSpace, Bool.or_eq_true, beq_iff_eq] at hspace
      rcases hspace with ((rfl | rfl) | rfl) | rfl <;> exact absurd h (by decide)
  rw [readValue?, skipBlanks_cons hspace]
  split
  case h_7 => rfl
  -- every other way to begin a value is told by another character
  all_goals
    next heq =>
      cases heq
      exact absurd h (by decide)

/-- A written integer starts with a dash or a digit. -/
theorem exists_cons_toString (n : Int) :
    ∃ c s, (toString n).toList = c :: s ∧ (c = '-' ∨ c.isDigit) := by
  rw [Int.toString_eq_repr, Int.repr_eq_if]
  split
  · obtain ⟨c, s, hdigits⟩ := List.exists_cons_of_ne_nil (Digits.ofNat_ne_nil n.toNat)
    refine ⟨c, s, Nat.toList_repr.trans hdigits, Or.inr ?_⟩
    exact Digits.isDigit_of_mem_ofNat (by rw [hdigits]; exact List.mem_cons_self)
  · exact ⟨'-', _, String.toList_append, Or.inl rfl⟩

/-- A written integer is read back if a number ends behind it. -/
theorem readValue?_integer {n : Int} (h : isExact (.integer n)) {rest : List Char}
    (hrest : EndsNumber rest) (fuel : Nat) :
    readValue? (fuel + 1) ((toString n).toList ++ rest) = some (.integer n, rest) := by
  have hread := readNumber?_toString h hrest
  obtain ⟨c, s, htext, hc⟩ := exists_cons_toString n
  rw [htext, List.cons_append] at hread ⊢
  rw [readValue?_of_isDigit hc, hread]

end Scalars

/-- A block with something in it puts each of its texts on a line of its own. -/
theorem block_of_ne_nil {opening closing : String} {depth : Nat} {texts : List String}
    (h : texts ≠ []) :
    block opening closing depth texts =
      opening ++ newline (depth + 1) ++ joined ("," ++ newline (depth + 1)) texts ++
        newline depth ++ closing := by
  cases texts with
  | nil => exact absurd rfl h
  | cons text texts => rfl

/-- A text is joined to others with the separator between them. -/
theorem joined_cons {separator text : String} {texts : List String} (h : texts ≠ []) :
    joined separator (text :: texts) = text ++ separator ++ joined separator texts := by
  rw [joined]
  exact h

theorem prettyElements_ne_nil {elements : List Json} (h : elements ≠ []) (depth : Nat) :
    prettyElements depth elements ≠ [] := by
  cases elements with
  | nil => exact absurd rfl h
  | cons value elements => nofun

theorem prettyMembers_ne_nil {members : List (String × Json)} (h : members ≠ []) (depth : Nat) :
    prettyMembers depth members ≠ [] := by
  cases members with
  | nil => exact absurd rfl h
  | cons member members => nofun

/-- A number ends before a line break. -/
theorem endsNumber_newline (depth : Nat) (s : List Char) :
    EndsNumber ((newline depth).toList ++ s) := by
  rw [newline, String.toList_ofList]
  rintro c ⟨⟩
  decide

theorem endsNumber_comma (s : List Char) : EndsNumber (',' :: s) := by
  rintro c ⟨⟩
  decide

/-- A line break and the indentation behind it are skipped. -/
theorem skipBlanks_newline {c : Char} (h : isSpace c = false) (depth : Nat) (s : List Char) :
    skipBlanks ((newline depth).toList ++ c :: s) = c :: s := by
  rw [skipBlanks_append fun _ => isSpace_of_mem_newline, skipBlanks_cons h]

/-- So much fuel is enough to read back what is not longer. -/
structure Reads (fuel : Nat) : Prop where
  /-- A value is read up to what follows it. -/
  value : ∀ (value : Json) (depth : Nat) (rest : List Char),
    value.isExact → EndsNumber rest → (value.prettyAt depth).length < fuel →
    readValue? fuel ((value.prettyAt depth).toList ++ rest) = some (value, rest)
  /-- Elements are read up to the bracket that closes them, after those read before. -/
  elements : ∀ (elements : List Json) (depth : Nat) (before : List Json) (tail rest : List Char),
    elements ≠ [] → areExact elements → EndsNumber tail → skipBlanks tail = ']' :: rest →
    (joined ("," ++ newline depth) (prettyElements depth elements)).length + 1 < fuel →
    readElements? fuel before
        ((joined ("," ++ newline depth) (prettyElements depth elements)).toList ++ tail) =
      some (before.reverse ++ elements, rest)
  /-- Members are read up to the brace that closes them, after those read before. -/
  members : ∀ (members : List (String × Json)) (depth : Nat) (before : List (String × Json))
    (tail rest : List Char),
    members ≠ [] → membersAreExact members → EndsNumber tail → skipBlanks tail = '\x7d' :: rest →
    (joined ("," ++ newline depth) (prettyMembers depth members)).length + 1 < fuel →
    readMembers? fuel (some before)
        ((joined ("," ++ newline depth) (prettyMembers depth members)).toList ++ tail) =
      some (some (before.reverse ++ members), rest)

namespace Reads

variable {fuel : Nat} (h : Reads fuel)

include h

/-- A written value is read back if a number ends behind it, with enough fuel for its text. -/
theorem readValue?_succ (value : Json) (depth : Nat) (rest : List Char) (hexact : value.isExact)
    (hrest : EndsNumber rest) (hfuel : (value.prettyAt depth).length < fuel + 1) :
    readValue? (fuel + 1) ((value.prettyAt depth).toList ++ rest) = some (value, rest) := by
  cases value with
  | null => exact readValue?_null fuel rest
  | bool b => exact readValue?_bool b fuel rest
  | integer n => exact readValue?_integer hexact hrest fuel
  | double => cases hexact
  | string text => exact readValue?_string fuel text rest
  | illegible => cases hexact
  | array elements =>
    by_cases hne : elements = []
    · rw [hne, prettyAt, prettyElements, block]
      rfl
    -- the elements are one level deeper, and shorter than the whole by the brackets
    · have hbrackets : "[".length = 1 ∧ "]".length = 1 := ⟨rfl, rfl⟩
      rw [prettyAt, block_of_ne_nil (prettyElements_ne_nil hne _)] at hfuel ⊢
      simp only [String.length_append] at hfuel
      have hread := h.elements elements (depth + 1) [] _ rest hne hexact
        (endsNumber_newline depth _) (skipBlanks_newline rfl depth rest) (by omega)
      rw [← readElements?_newline (depth + 1)] at hread
      simp only [String.toList_append, List.append_assoc]
      exact readValue?_array hread
  | object members =>
    by_cases hne : members = []
    · rw [hne, prettyAt, prettyMembers, block]
      rfl
    -- the members are one level deeper, and shorter than the whole by the braces
    · have hbraces : "\x7b".length = 1 ∧ "\x7d".length = 1 := ⟨rfl, rfl⟩
      rw [prettyAt, block_of_ne_nil (prettyMembers_ne_nil hne _)] at hfuel ⊢
      simp only [String.length_append] at hfuel
      have hread := h.members members (depth + 1) [] _ rest hne hexact
        (endsNumber_newline depth _) (skipBlanks_newline rfl depth rest) (by omega)
      rw [← readMembers?_newline (depth + 1)] at hread
      simp only [String.toList_append, List.append_assoc]
      exact readValue?_object hread

/-- Written elements are read back up to the closing bracket, behind those read before. -/
theorem readElements?_succ (elements : List Json) (depth : Nat) (before : List Json)
    (tail rest : List Char) (hne : elements ≠ []) (hexact : areExact elements)
    (htail : EndsNumber tail) (hclose : skipBlanks tail = ']' :: rest)
    (hfuel : (joined ("," ++ newline depth) (prettyElements depth elements)).length + 1 <
      fuel + 1) :
    readElements? (fuel + 1) before
        ((joined ("," ++ newline depth) (prettyElements depth elements)).toList ++ tail) =
      some (before.reverse ++ elements, rest) := by
  cases elements with
  | nil => exact absurd rfl hne
  | cons value elements =>
    rw [areExact, Bool.and_eq_true] at hexact
    rw [prettyElements] at hfuel ⊢
    by_cases hlast : elements = []
    -- the last element is followed by the closing bracket
    · rw [hlast, prettyElements, joined] at hfuel ⊢
      have hvalue := h.value value depth tail hexact.1 htail (by omega)
      rw [readElements?_last before hvalue hclose, List.reverse_cons]
    -- any other by a comma and a new line
    · have hcomma : ",".length = 1 := rfl
      rw [joined_cons (prettyElements_ne_nil hlast depth)] at hfuel ⊢
      simp only [String.length_append] at hfuel
      have hrest := h.elements elements depth (value :: before) tail rest hlast hexact.2 htail
        hclose (by omega)
      rw [← readElements?_newline depth] at hrest
      simp only [String.toList_append, List.append_assoc]
      have hvalue := fun s =>
        h.value value depth (',' :: s) hexact.1 (endsNumber_comma s) (by omega)
      refine (readElements?_next before (hvalue _) (skipBlanks_cons rfl _)).trans
        (hrest.trans ?_)
      rw [List.reverse_cons, List.append_assoc]
      rfl

/-- Written members are read back up to the closing brace, behind those read before. -/
theorem readMembers?_succ (members : List (String × Json)) (depth : Nat)
    (before : List (String × Json)) (tail rest : List Char) (hne : members ≠ [])
    (hexact : membersAreExact members) (htail : EndsNumber tail)
    (hclose : skipBlanks tail = '\x7d' :: rest)
    (hfuel : (joined ("," ++ newline depth) (prettyMembers depth members)).length + 1 <
      fuel + 1) :
    readMembers? (fuel + 1) (some before)
        ((joined ("," ++ newline depth) (prettyMembers depth members)).toList ++ tail) =
      some (some (before.reverse ++ members), rest) := by
  cases members with
  | nil => exact absurd rfl hne
  | cons member members =>
    obtain ⟨name, value⟩ := member
    rw [membersAreExact, Bool.and_eq_true] at hexact
    rw [prettyMembers] at hfuel ⊢
    by_cases hlast : members = []
    -- the last member is followed by the closing brace
    · rw [hlast, prettyMembers, joined] at hfuel ⊢
      simp only [String.length_append] at hfuel
      have hvalue := h.value value depth tail hexact.1 htail (by omega)
      rw [← readValue?_space] at hvalue
      simp only [String.toList_append, List.append_assoc]
      exact (readMembers?_last before name hvalue hclose).trans (by rw [List.reverse_cons])
    -- any other by a comma and a new line
    · have hcomma : ",".length = 1 := rfl
      rw [joined_cons (prettyMembers_ne_nil hlast depth)] at hfuel ⊢
      simp only [String.length_append] at hfuel
      have hrest := h.members members depth ((name, value) :: before) tail rest hlast hexact.2
        htail hclose (by omega)
      rw [← readMembers?_newline depth] at hrest
      have hvalue := fun s =>
        h.value value depth (',' :: s) hexact.1 (endsNumber_comma s) (by omega)
      simp only [← readValue?_space fuel (_ ++ _)] at hvalue
      simp only [String.toList_append, List.append_assoc]
      refine (readMembers?_next before name (hvalue _) (skipBlanks_cons rfl _)).trans
        (hrest.trans ?_)
      rw [List.reverse_cons, List.append_assoc]
      rfl

end Reads

/-- Every text is read back with as much fuel as it is long. -/
theorem reads (fuel : Nat) : Reads fuel := by
  -- each of the three readers hands less fuel on to the others
  induction fuel with
  | zero => exact ⟨nofun, nofun, nofun⟩
  | succ fuel ih => exact ⟨ih.readValue?_succ, ih.readElements?_succ, ih.readMembers?_succ⟩

end Values

/-- A value is read back from its written form. -/
theorem read?_pretty {value : Json} (h : value.isExact) : read? value.pretty = some value := by
  have hread := (reads (value.pretty.toList.length + 1)).value value 0 [] h nofun
    (Nat.lt_succ_of_le (Nat.le_of_eq String.length_toList.symm))
  rw [List.append_nil] at hread
  rw [read?]
  simp only [pretty] at hread ⊢
  rw [hread]
  rfl

/-- A document in sorted form is read back from its written form. -/
theorem parse?_pretty {value : Json} (hexact : value.isExact)
    (hdocument : value.isDocument maxDepth) (hsorted : value.sorted = value) :
    parse? value.pretty = some value := by
  rw [parse?, read?_pretty hexact, Option.bind_some, if_pos hdocument, hsorted]

end Curation.Json

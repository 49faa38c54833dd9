import Curation.Proofs.Query.Cursor

/-!
# Spans of tokens

The reader of a text goes from place to place, from the front of the text to its end. At each place
it passes over a blank character or over a token. Its steps follow one another without a gap, so no
text is lost: what lies outside the spans of the tokens is blank.

* `ReaderStep.at?`, `ReaderRun`: the step at a place, and the steps up to the end of the text.
* `ReaderStep.at?_blank`, `ReaderStep.at?_token`: the reader never fails between characters.
* `Tiles`: steps that follow one another from one place to another.
* `exists_readerRun`: the reader comes to the end of a text, and reads the lexemes on the way.
* `exists_isReading`: the spans of the tokens of a text.
-/

namespace Curation

open Text

/-- A step of the reader from one place in a text to the next one. -/
structure ReaderStep where
  start : Nat
  stop : Nat
  /-- The token between the places, if there is no blank character. -/
  token? : Option Token
  deriving DecidableEq, Repr

namespace ReaderStep

/-- The step at a place, if the text goes on there; a failure if the text is cut behind its end or
inside a character. -/
def at? (s : List Char) (place : Nat) : Option (Option ReaderStep) := do
  let rest ← sliceFrom? s place
  match rest.head? with
  | none => some none
  | some c =>
    if isBlank c then some (some ⟨place, place + c.utf8Size, none⟩)
    else
      let (token, next) ← Token.scanAt? s place
      some (some ⟨place, next, some token⟩)

/-- The step passes over a blank character, or over a token that stands between its places. -/
def Stands (step : ReaderStep) (s : List Char) : Prop :=
  ∃ before passed rest, s = before ++ passed ++ rest ∧ passed ≠ [] ∧
    step.start = (utf8 before).length ∧ step.stop = (utf8 (before ++ passed)).length ∧
    match step.token? with
    | none => ∃ c, passed = [c] ∧ isBlank c = true
    | some token => token.Stands passed rest

/-- The token of a step with the text between its places. -/
def lexeme? (s : List Char) (step : ReaderStep) : Option Lexeme := do
  let token ← step.token?
  let text ← slice? s step.start step.stop
  some ⟨token, text⟩

end ReaderStep

/-- The steps of the reader from a place to the end of the text. -/
inductive ReaderRun (s : List Char) : Nat → List ReaderStep → Prop
  | done {place : Nat} : ReaderStep.at? s place = some none → ReaderRun s place []
  | step {place : Nat} {step : ReaderStep} {steps : List ReaderStep} :
      ReaderStep.at? s place = some (some step) → ReaderRun s step.stop steps →
      ReaderRun s place (step :: steps)

/-- Steps that follow one another without a gap from one place to another, each of them going on. -/
inductive Tiles : Nat → List ReaderStep → Nat → Prop
  | nil {place : Nat} : Tiles place [] place
  | cons {start stop : Nat} {step : ReaderStep} {steps : List ReaderStep} :
      step.start = start → start < step.stop → Tiles step.stop steps stop →
      Tiles start (step :: steps) stop

/-- The steps that pass over tokens. -/
def spans (steps : List ReaderStep) : List ReaderStep := steps.filter (·.token?.isSome)

/-! ## Steps that follow one another -/

namespace Tiles

variable {start stop : Nat} {steps : List ReaderStep}

/-- No step is empty. -/
theorem start_lt_stop (h : Tiles start steps stop) : ∀ step ∈ steps, step.start < step.stop := by
  induction h with
  | nil => exact List.forall_mem_nil _
  | cons hstart hlt _ ih => exact List.forall_mem_cons.mpr ⟨hstart ▸ hlt, ih⟩

theorem start_le (h : Tiles start steps stop) : ∀ step ∈ steps, start ≤ step.start := by
  induction h with
  | nil => exact List.forall_mem_nil _
  | cons hstart hlt _ ih =>
    refine List.forall_mem_cons.mpr ⟨Nat.le_of_eq hstart.symm, fun step hstep => ?_⟩
    exact Nat.le_trans (Nat.le_of_lt hlt) (ih step hstep)

/-- The steps are in order and do not overlap. -/
theorem pairwise (h : Tiles start steps stop) :
    steps.Pairwise fun first second => first.stop ≤ second.start := by
  induction h with
  | nil => exact .nil
  | cons _ _ hrest ih => exact .cons hrest.start_le ih

/-- Each place before the last one lies in a step. -/
theorem exists_mem (h : Tiles start steps stop) {place : Nat} (hplace : start ≤ place)
    (hstop : place < stop) : ∃ step ∈ steps, step.start ≤ place ∧ place < step.stop := by
  induction h with
  | nil => omega
  | @cons start stop step steps hstart _ _ ih =>
    rcases Nat.lt_or_ge place step.stop with hlt | hge
    · exact ⟨step, List.mem_cons_self, by omega, hlt⟩
    · obtain ⟨later, hlater, hbounds⟩ := ih hge hstop
      exact ⟨later, List.mem_cons_of_mem step hlater, hbounds⟩

end Tiles

/-! ## The run of the reader -/

/-- Every run of the reader takes the same steps. -/
theorem ReaderRun.unique {s : List Char} {place : Nat} {steps others : List ReaderStep}
    (h : ReaderRun s place steps) (hothers : ReaderRun s place others) : others = steps := by
  -- at each place there is one step at most, as the reader is a function
  induction h generalizing others with
  | done hdone =>
    cases hothers with
    | done _ => rfl
    | step hstep _ =>
      rw [hdone] at hstep
      cases hstep
  | step hstep _ ih =>
    cases hothers with
    | done hdone =>
      rw [hstep] at hdone
      cases hdone
    | step hother hrest =>
      rw [hstep] at hother
      cases hother
      rw [ih hrest]

namespace ReaderStep

variable {c : Char} {before s : List Char}

/-- At the end of a text the reader stops. -/
theorem at?_nil (before : List Char) : at? before (utf8 before).length = some none := by
  have hslice := sliceFrom?_append before []
  rw [List.append_nil] at hslice
  rw [at?, hslice]
  rfl

/-- The reader passes over a blank character. -/
theorem at?_blank (hc : isBlank c = true) (before s : List Char) :
    at? (before ++ c :: s) (utf8 before).length =
      some (some ⟨(utf8 before).length, (utf8 (before ++ [c])).length, none⟩) := by
  simp [at?, sliceFrom?_append, hc]

/-- The reader passes over the token that is scanned at its place. -/
theorem at?_token (hc : isBlank c = false) (before s : List Char) :
    let scanned := Token.scan (c :: s)
    at? (before ++ c :: s) (utf8 before).length =
      some (some ⟨(utf8 before).length, (utf8 (before ++ (c :: s).take scanned.2)).length,
        some scanned.1⟩) := by
  simp [at?, sliceFrom?_append, Token.scanAt?_append, hc]

end ReaderStep

/-- The reader comes to the end of a text. Its steps follow one another, each of them stands at its
place, and the tokens on its way are the lexemes of the text. -/
theorem exists_readerRun (before s : List Char) :
    ∃ steps, ReaderRun (before ++ s) (utf8 before).length steps ∧
      Tiles (utf8 before).length steps (utf8 (before ++ s)).length ∧
      (∀ step ∈ steps, step.Stands (before ++ s)) ∧
      (spans steps).map (ReaderStep.lexeme? (before ++ s)) = (lexemes s).map some := by
  -- what has been read grows at its end, so that each place is told by the bytes before it
  induction s using lexemes_induction generalizing before with
  | nil =>
    refine ⟨[], ?_, ?_, List.forall_mem_nil _, rfl⟩
    · rw [List.append_nil]
      exact .done (ReaderStep.at?_nil before)
    · rw [List.append_nil]
      exact .nil
  | blank c s hc ih =>
    obtain ⟨steps, hrun, htiles, hstands, hlexemes⟩ := ih (before ++ [c])
    have happend : before ++ [c] ++ s = before ++ c :: s := List.append_assoc before [c] s
    rw [happend] at hrun htiles hstands hlexemes
    have hlt := length_utf8_lt_append before (List.cons_ne_nil c [])
    refine ⟨_ :: steps, .step (ReaderStep.at?_blank hc before s) hrun, .cons rfl hlt htiles,
      List.forall_mem_cons.mpr ⟨?_, hstands⟩, ?_⟩
    · exact ⟨before, [c], s, happend.symm, List.cons_ne_nil c [], rfl, rfl, c, rfl, hc⟩
    · rw [lexemes_cons_blank hc]
      exact hlexemes
  | token c s hc ih =>
    let scanned := Token.scan (c :: s)
    let passed := (c :: s).take scanned.2
    obtain ⟨steps, hrun, htiles, hstands, hlexemes⟩ := ih (before ++ passed)
    have happend : before ++ passed ++ (c :: s).drop scanned.2 = before ++ c :: s := by
      rw [List.append_assoc, List.take_append_drop]
    rw [happend] at hrun htiles hstands hlexemes
    -- a token takes a character at least, so the reader goes on
    have hpassed : passed ≠ [] := by
      have hpos := Token.scan_pos hc s
      simpa [passed, scanned] using Nat.ne_of_gt hpos
    have hslice := slice?_append before passed ((c :: s).drop scanned.2)
    rw [happend] at hslice
    refine ⟨_ :: steps, .step (ReaderStep.at?_token hc before s) hrun,
      .cons rfl (length_utf8_lt_append before hpassed) htiles,
      List.forall_mem_cons.mpr ⟨?_, hstands⟩, ?_⟩
    · exact ⟨before, passed, _, happend.symm, hpassed, rfl, rfl, Token.stands_scan (c :: s)⟩
    · have hlexeme : ReaderStep.lexeme? (before ++ c :: s)
          ⟨(utf8 before).length, (utf8 (before ++ passed)).length, some scanned.1⟩ =
            some ⟨scanned.1, passed⟩ := by
        simp only [ReaderStep.lexeme?, hslice, bind, Option.bind_some]
      rw [lexemes_cons hc, List.map_cons, ← hlexemes, ← hlexeme]
      rfl

/-- The steps of the reader through a text, and the spans of its tokens among them. -/
structure IsReading (text : String) (steps : List ReaderStep) : Prop where
  /-- The steps lead from the front of the text to its end. Each of them goes on, to the place where
  the next one begins. -/
  tiles : Tiles 0 steps text.utf8ByteSize
  /-- They begin and end between characters of the text. -/
  isValid : ∀ step ∈ steps, String.Pos.Raw.IsValid text ⟨step.start⟩ ∧
    String.Pos.Raw.IsValid text ⟨step.stop⟩
  /-- Each one passes over a blank character, or over a token that stands there. -/
  stands : ∀ step ∈ steps, step.Stands text.toList
  /-- The tokens with the texts between their places are the lexemes of the text. -/
  lexemes_eq : (spans steps).map (ReaderStep.lexeme? text.toList) = (lexemes text.toList).map some
  /-- No span of a token is empty. -/
  start_lt_stop : ∀ span ∈ spans steps, span.start < span.stop
  /-- The spans of the tokens are in order and do not overlap. -/
  pairwise : (spans steps).Pairwise fun first second => first.stop ≤ second.start
  /-- Each character that is not blank lies in the span of a token. -/
  blank_or_mem : ∀ before c after, text.toList = before ++ c :: after →
    isBlank c = true ∨ ∃ span ∈ spans steps,
      span.start ≤ (utf8 before).length ∧ (utf8 (before ++ [c])).length ≤ span.stop

/-- A step that stands in a text begins and ends between characters. -/
theorem ReaderStep.Stands.isValid {step : ReaderStep} {text : String}
    (h : step.Stands text.toList) : String.Pos.Raw.IsValid text ⟨step.start⟩ ∧
      String.Pos.Raw.IsValid text ⟨step.stop⟩ := by
  obtain ⟨before, passed, rest, htext, -, hstart, hstop, -⟩ := h
  refine ⟨(isValid_iff ..).mpr ⟨before, passed ++ rest, ?_, hstart⟩,
    (isValid_iff ..).mpr ⟨before ++ passed, rest, htext, hstop⟩⟩
  rw [htext, List.append_assoc]

/-- A character at a place that lies in a step is the blank character that the step passes over, or
it lies in the span of a token. -/
theorem ReaderStep.Stands.blank_or_span {step : ReaderStep} {s before after : List Char} {c : Char}
    (h : step.Stands s) (hs : s = before ++ c :: after) (hstart : step.start ≤ (utf8 before).length)
    (hstop : (utf8 before).length < step.stop) :
    isBlank c = true ∨
      step.token?.isSome = true ∧ (utf8 (before ++ [c])).length ≤ step.stop := by
  obtain ⟨front, passed, rest, heq, -, hfront, hpassed, hshape⟩ := h
  have hbefore : before ++ [c] <+: s := ⟨after, by rw [hs, List.append_assoc]; rfl⟩
  rw [hpassed] at hstop ⊢
  -- the character does not reach beyond the step, as the step ends between characters
  have hwithin : before ++ [c] <+: front ++ passed :=
    append_singleton_prefix hbefore ⟨rest, heq.symm⟩ hstop
  cases htoken : step.token? with
  | some token =>
    obtain ⟨later, hlater⟩ := hwithin
    refine Or.inr ⟨rfl, ?_⟩
    rw [← hlater, length_utf8_append (before ++ [c])]
    exact Nat.le_add_right _ _
  | none =>
    rw [htoken] at hshape
    obtain ⟨d, rfl, hd⟩ := hshape
    -- the step holds one character only, which begins where the step does
    have hfrontPrefix : front <+: s := ⟨[d] ++ rest, by rw [heq, List.append_assoc]⟩
    have hlength : front.length ≤ before.length :=
      (prefix_of_length_utf8_le hfrontPrefix ⟨c :: after, hs.symm⟩ (hfront ▸ hstart)).length_le
    have hsame : before ++ [c] = front ++ [d] := by
      refine hwithin.eq_of_length_le ?_
      rw [List.length_append, List.length_append]
      exact Nat.add_le_add_right hlength 1
    obtain ⟨-, hc⟩ := List.append_inj' hsame rfl
    exact Or.inl ((List.cons.inj hc).1 ▸ hd)

/-- The reader comes to the end of every text, in one way only, and it cuts the text at valid
positions that are in order, as no other cut succeeds. The tokens that it reads have spans, one
behind another and not empty, that hold all of the text but blank characters. A keyword or a word
reaches to the next blank character or to the end of the text, and a phrase to the first quote that
is not escaped behind its opening one; where there is none, the opening quote belongs to a word. -/
theorem exists_isReading (text : String) :
    (∀ start stop, (slice? text.toList start stop).isSome ↔
      String.Pos.Raw.IsValid text ⟨start⟩ ∧ String.Pos.Raw.IsValid text ⟨stop⟩ ∧ start ≤ stop) ∧
    ∃ steps, (∀ others, ReaderRun text.toList 0 others ↔ others = steps) ∧
      IsReading text steps := by
  refine ⟨fun start stop => isSome_slice?_iff text, ?_⟩
  obtain ⟨steps, hrun, htiles, hstands, hlexemes⟩ := exists_readerRun [] text.toList
  rw [List.nil_append, length_utf8_toList] at htiles
  have hspans : (spans steps).Sublist steps := List.filter_sublist
  refine ⟨steps, fun others => ⟨hrun.unique, fun h => h ▸ hrun⟩, htiles,
    fun step hstep => (hstands step hstep).isValid, hstands, hlexemes,
    fun span hspan => htiles.start_lt_stop span (hspans.subset hspan),
    htiles.pairwise.sublist hspans, fun before c after htext => ?_⟩
  -- each character stands at a place before the end, which lies in a step
  have hplace : (utf8 before).length < text.utf8ByteSize := by
    rw [← length_utf8_toList, htext]
    exact length_utf8_lt_append before (List.cons_ne_nil c after)
  obtain ⟨step, hstep, hstart, hstop⟩ := htiles.exists_mem (Nat.zero_le _) hplace
  rcases (hstands step hstep).blank_or_span htext hstart hstop with hblank | ⟨htoken, hend⟩
  · exact Or.inl hblank
  · exact Or.inr ⟨step, List.mem_filter.mpr ⟨hstep, htoken⟩, hstart, hend⟩

/-- A word of two bytes, a phrase with an escaped quote behind a dash and the name of a field, a
word right behind it, and a word that begins with a quote that is never closed. -/
theorem exists_isReading_quotes :
    let text := "é -title:\"a \\\" b\"c \"d"
    let phrase : Term :=
      { field := some .title, text := "a \" b", isPhrase := true, negated := true }
    IsReading text
      [⟨0, 2, some (.term { text := "é" })⟩, ⟨2, 3, none⟩, ⟨3, 18, some (.term phrase)⟩,
        ⟨18, 19, some (.term { text := "c" })⟩, ⟨19, 20, none⟩,
        ⟨20, 22, some (.term { text := "\"d" })⟩] := by
  intro text phrase
  obtain ⟨-, steps, hsteps, hreading⟩ := exists_isReading text
  -- the reader makes these six steps, so they are the ones that the theorem tells of
  have hrun : ReaderRun text.toList 0
      [⟨0, 2, some (.term { text := "é" })⟩, ⟨2, 3, none⟩, ⟨3, 18, some (.term phrase)⟩,
        ⟨18, 19, some (.term { text := "c" })⟩, ⟨19, 20, none⟩,
        ⟨20, 22, some (.term { text := "\"d" })⟩] :=
    .step (by decide +kernel) <| .step (by decide +kernel) <| .step (by decide +kernel) <|
      .step (by decide +kernel) <| .step (by decide +kernel) <| .step (by decide +kernel) <|
        .done (by decide +kernel)
  rwa [(hsteps _).mp hrun]

end Curation

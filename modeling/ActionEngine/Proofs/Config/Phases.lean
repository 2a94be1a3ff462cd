import ActionEngine.Proofs.Config.Reading

/-!
# What is open in which phase

An action is being collected exactly in the two collecting phases, and its prompt block is
open exactly in the second of them. Every line keeps this, whatever came before it, so that
every property and every row of a block finds the action it belongs to.
-/

namespace ActionEngine.Config

open ActionEngine.Text

namespace Parser

def HasBlock (p : Parser) : Prop :=
  ∃ d, p.draft = some d ∧ d.block.isSome = true

/-- The phase says what is open, and nothing was missing so far. -/
structure Coherent (p : Parser) : Prop where
  draft : p.draft.isSome = true ↔ p.phase = .collectProperty ∨ p.phase = .collectPrompt
  block : p.HasBlock ↔ p.phase = .collectPrompt
  sound : p.sound = true

/-- An open action joins the actions or is counted as skipped when it ends. -/
theorem flush_counts (p : Parser) :
    p.flush.actions.length + p.flush.skipped =
      p.actions.length + p.skipped + p.draft.toList.length := by
  unfold flush
  cases p.draft with
  | none => rfl
  | some d =>
      dsimp only
      cases d.closeBlock.build with
      | ok action =>
          simp only [List.length_append, List.length_singleton, Option.toList_some]
          omega
      | error refusal => simp only [List.length_singleton, Option.toList_some]; omega

namespace Coherent

variable {p : Parser}

/-! ### The three situations -/

theorem of_closed (phase : p.phase = .expectCategory ∨ p.phase = .expectAction)
    (draft : p.draft = none) (sound : p.sound = true) : p.Coherent := by
  have outside : p.phase ≠ .collectProperty ∧ p.phase ≠ .collectPrompt := by
    rcases phase with h | h <;> rw [h] <;> exact ⟨Phase.noConfusion, Phase.noConfusion⟩
  refine ⟨?_, ?_, sound⟩
  · rw [draft]
    exact iff_of_false Bool.false_ne_true (not_or.2 outside)
  · refine iff_of_false ?_ outside.2
    rintro ⟨d, hd, -⟩
    rw [draft] at hd
    cases hd

theorem of_collecting {d : Draft} (phase : p.phase = .collectProperty) (draft : p.draft = some d)
    (block : d.block = none) (sound : p.sound = true) : p.Coherent := by
  refine ⟨?_, ?_, sound⟩
  · rw [draft, phase]
    exact iff_of_true rfl (.inl rfl)
  · rw [phase]
    refine iff_of_false ?_ Phase.noConfusion
    rintro ⟨d', hd, hb⟩
    rw [draft] at hd
    cases hd
    rw [block] at hb
    cases hb

theorem of_block {d : Draft} (phase : p.phase = .collectPrompt) (draft : p.draft = some d)
    (block : d.block.isSome = true) (sound : p.sound = true) : p.Coherent := by
  refine ⟨?_, ?_, sound⟩
  · rw [draft, phase]
    exact iff_of_true rfl (.inr rfl)
  · rw [phase]
    exact iff_of_true ⟨d, draft, block⟩ rfl

theorem draft_of_collecting (h : p.Coherent) (phase : p.phase = .collectProperty) :
    ∃ d, p.draft = some d ∧ d.block = none := by
  obtain ⟨d, hd⟩ := Option.isSome_iff_exists.1 (h.draft.2 (.inl phase))
  refine ⟨d, hd, ?_⟩
  cases hb : d.block with
  | none => rfl
  | some b =>
      have inBlock := h.block.1 ⟨d, hd, by rw [hb]; rfl⟩
      rw [phase] at inBlock
      cases inBlock

theorem draft_eq_none (h : p.Coherent) (property : p.phase ≠ .collectProperty)
    (prompt : p.phase ≠ .collectPrompt) : p.draft = none := by
  cases hd : p.draft with
  | none => rfl
  | some d => exact absurd (h.draft.1 (by rw [hd]; rfl)) (not_or.2 ⟨property, prompt⟩)

/-! ### What each line keeps -/

theorem initial : Parser.initial.Coherent :=
  of_closed (.inl rfl) rfl rfl

theorem setProperty (h : p.Coherent) (phase : p.phase = .collectProperty) (indent : Nat)
    (key value : Line) : (p.setProperty indent key value).Coherent := by
  obtain ⟨d, hd, hb⟩ := h.draft_of_collecting phase
  unfold Parser.setProperty
  rw [hd]
  dsimp only
  split
  · exact h
  · exact of_collecting phase rfl hb h.sound
  · exact of_collecting phase rfl hb h.sound
  · exact of_collecting phase rfl hb h.sound
  · exact of_collecting phase rfl hb h.sound
  · split
    · exact of_block rfl rfl rfl h.sound
    · exact of_collecting phase rfl hb h.sound

theorem flush_sound (h : p.Coherent) : p.flush.draft = none ∧ p.flush.sound = true := by
  obtain ⟨-, -, closed, same⟩ := p.flush_frame
  exact ⟨closed, same.trans h.sound⟩

theorem closeMalformed (h : p.Coherent) (t : Token) : (p.closeMalformed t).Coherent := by
  obtain ⟨closed, sound⟩ := h.flush_sound
  unfold Parser.closeMalformed
  dsimp only
  split
  · exact of_closed (.inl rfl) closed sound
  · refine of_closed ?_ closed sound
    dsimp only
    split
    · exact .inl rfl
    · exact .inr rfl

theorem feedOutside (h : p.Coherent) (t : Token) : (p.feedOutside t).Coherent := by
  obtain ⟨closed, sound⟩ := h.flush_sound
  unfold Parser.feedOutside
  split
  · exact h
  · exact h
  · exact of_closed (.inr rfl) closed sound
  · exact of_collecting rfl rfl rfl sound
  · split
    · exact h.setProperty ‹p.phase = .collectProperty› _ _ _
    · exact h
  · split
    · exact h.closeMalformed t
    · exact h

theorem feedBlock (h : p.Coherent) (inBlock : p.phase = .collectPrompt) (t : Token) :
    (p.feedBlock t).Coherent := by
  obtain ⟨d, hd, hb⟩ := h.block.2 inBlock
  have added (line : Line) : (d.addLine line).block.isSome = true := by
    unfold Draft.addLine
    rw [Option.isSome_map, hb]
  rw [feedBlock_eq hd hb]
  split
  · exact of_block inBlock rfl (added []) h.sound
  · split
    · exact of_block inBlock rfl (added t.line) h.sound
    · exact h

theorem leaveBlock (h : p.Coherent) (inBlock : p.phase = .collectPrompt) :
    p.leaveBlock.Coherent := by
  obtain ⟨d, hd, -⟩ := h.block.2 inBlock
  unfold Parser.leaveBlock
  rw [hd]
  exact of_collecting rfl rfl (closeBlock_block d) h.sound

theorem feed (h : p.Coherent) (t : Token) : (p.feed t).Coherent := by
  unfold Parser.feed
  split
  · have inBlock : p.phase = .collectPrompt := ‹_›
    split
    · exact h.feedBlock inBlock t
    -- A line that ends the block is read like one behind the properties.
    · exact (h.leaveBlock inBlock).feedOutside t
  · exact h.feedOutside t

theorem feedAll (h : p.Coherent) (ts : List Token) : (p.feedAll ts).Coherent := by
  induction ts generalizing p with
  | nil => exact h
  | cons t ts ih => exact ih (h.feed t)

theorem finish (h : p.Coherent) : p.finish.Coherent := by
  obtain ⟨closed, sound⟩ := h.flush_sound
  exact of_closed (.inl rfl) closed sound

theorem parse (text : Option String) : (Parser.parse text).Coherent := by
  cases text with
  | none => exact initial
  | some s => exact (initial.feedAll _).finish

end Coherent

end Parser

/-! ### One parser, used again and again -/

inductive Request where
  | reset
  | parse (text : Option String)
  | feed (t : Token)
  | finish

def Request.reading : Option String → List Request
  | none => [.reset]
  | some s => .reset :: (tokens s.toList).map .feed ++ [.finish]

namespace Parser

def answer (p : Parser) : Request → Parser
  | .reset => initial
  | .parse text => parse text
  | .feed t => p.feed t
  | .finish => p.finish

def after (p : Parser) (requests : List Request) : Parser :=
  requests.foldl answer p

theorem Coherent.answer {p : Parser} (h : p.Coherent) (r : Request) : (p.answer r).Coherent := by
  cases r with
  | reset => exact initial
  | parse text => exact parse text
  | feed t => exact h.feed t
  | finish => exact h.finish

theorem Coherent.after {p : Parser} (h : p.Coherent) (requests : List Request) :
    (p.after requests).Coherent := by
  induction requests generalizing p with
  | nil => exact h
  | cons r requests ih => exact ih (h.answer r)

theorem after_feeds (p : Parser) (ts : List Token) : p.after (ts.map .feed) = p.feedAll ts := by
  unfold after feedAll
  rw [List.foldl_map]
  rfl

theorem after_reading (p : Parser) (text : Option String) :
    p.after (Request.reading text) = parse text := by
  cases text with
  | none => rfl
  | some s =>
      have split : p.after (Request.reading (some s)) =
          (initial.after ((tokens s.toList).map .feed)).finish := List.foldl_append
      rw [split, after_feeds]
      rfl

/-- Behind any requests, in any order and about any lines, an action is being collected
    exactly in the two collecting phases, and its prompt block is open exactly in the second
    one; nothing was missing where it was needed. An open action that ends joins the actions
    or is counted as skipped, whatever is wrong with it. Reading a text is a row of such
    requests, so that nothing is missing on the way there either; it always comes to its
    end, with nothing left open. -/
theorem phase_tells_what_is_open (requests : List Request) :
    (((initial.after requests).draft.isSome = true ↔
          (initial.after requests).phase = .collectProperty ∨
            (initial.after requests).phase = .collectPrompt) ∧
        ((initial.after requests).HasBlock ↔ (initial.after requests).phase = .collectPrompt) ∧
        (initial.after requests).sound = true) ∧
      (initial.after requests).flush.actions.length + (initial.after requests).flush.skipped =
        (initial.after requests).actions.length + (initial.after requests).skipped +
          (initial.after requests).draft.toList.length ∧
      ∀ text : Option String,
        (initial.after requests).answer (.parse text) =
            (initial.after requests).after (Request.reading text) ∧
          parseActions text = ((initial.after requests).after (Request.reading text)).actions ∧
          (parse text).phase = .expectCategory ∧ (parse text).draft = none := by
  have coherent := Coherent.initial.after requests
  generalize initial.after requests = p at coherent
  refine ⟨⟨coherent.draft, coherent.block, coherent.sound⟩, p.flush_counts, ?_⟩
  intro text
  have closed : (parse text).phase = .expectCategory := by
    cases text <;> rfl
  refine ⟨(after_reading p text).symm, ?_, closed, ?_⟩
  · rw [after_reading]
    rfl
  · refine (Coherent.parse text).draft_eq_none ?_ ?_ <;> rw [closed] <;> exact Phase.noConfusion

end Parser

end ActionEngine.Config

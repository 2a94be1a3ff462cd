import ActionEngine.Proofs.Config.Boundary

/-!
# Documents read one after the other

The end of a document ends the open action, but not the category. So the next document is read as
if it stood in the category that the one before ended in: its actions in front of the first line
that opens or closes a category are adopted, where on its own they would be skipped. What follows
that line is read as if nothing had been read before.

The two readings of the next document, in the category and on its own, are compared line by line.
They agree in everything but the category until such a line comes, and in everything but the
actions and the count afterwards.
-/

namespace ActionEngine.Config

open ActionEngine.Text

/-- The line opens a category or closes one, wherever it is not taken in by a prompt block. -/
def Token.turns (t : Token) : Bool :=
  match t.shape with
  | .category _ => true
  | .text => t.indent == 0
  | _ => false

def Draft.inside (category : Option Line) (d : Draft) : Draft :=
  { d with category := category }

def MadeUnder (category : Option Line) (a : Action) : Prop :=
  ∃ key c, category = some key ∧ Category.ofText? (String.ofList key) = some c ∧
    a.category = .known c

namespace Parser

def inside (category : Option Line) : Parser :=
  { initial with category := category }

def turnsAt (p : Parser) (t : Token) : Bool :=
  t.turns && !(p.phase = .collectPrompt && continuesBlock t)

/-- The lines in front of the first one that the category changes with. -/
def lead (p : Parser) : List Token → List Token
  | [] => []
  | t :: ts => if p.turnsAt t then [] else t :: (p.feed t).lead ts

/-- The actions that a document gives to the category that it stands in. -/
def adopted (category : Option Line) (ts : List Token) : List Action :=
  ((inside category).feedAll ((inside category).lead ts)).finish.actions

/-! ### Drafts -/

section Draft

variable (category : Option Line) (d : Draft)

theorem closeBlock_inside : (d.inside category).closeBlock = d.closeBlock.inside category := by
  obtain ⟨own, name, number, title, icon, selection, external, prompt, block⟩ := d
  cases block <;> rfl

theorem build_inside_none : (d.inside none).build = .error (.noCategory d.name) := rfl

theorem madeUnder_of_build {a : Action} (h : (d.inside category).build = .ok a) :
    MadeUnder category a := by
  unfold Draft.build Draft.inside at h
  dsimp only at h
  cases category with
  | none => cases h
  | some key =>
      dsimp only at h
      cases known : Category.ofText? (String.ofList key) with
      | none =>
          rw [known] at h
          cases h
      | some c =>
          rw [known] at h
          refine ⟨key, c, rfl, known, ?_⟩
          cases titled : d.title with
          | none =>
              rw [titled] at h
              cases h
          | some title =>
              rw [titled] at h
              cases title <;> cases h
              rfl

end Draft

/-! ### The same lines in a category and in none -/

/-- One parser has read in a category what the other one has read in none. -/
structure Adopts (category : Option Line) (p q : Parser) : Prop where
  phase : p.phase = q.phase ∨ p.phase = .expectAction ∧ q.phase = .expectCategory
  within : p.category = category
  outside : q.category = none
  draft : ∃ d? : Option Draft,
    p.draft = d?.map (Draft.inside category) ∧ q.draft = d?.map (Draft.inside none)
  made : ∀ a ∈ p.actions, MadeUnder category a
  nothing : q.actions = []
  skipped : q.skipped = p.skipped + p.actions.length
  sound : p.sound = q.sound

/-- Two parsers that differ in what was read before go on in the same way. -/
theorem feedAll_behind_eq {before before' : List Action} {count count' : Nat} {p q : Parser}
    (h : p.behind before count = q.behind before' count') (ts : List Token) :
    (p.feedAll ts).behind before count = (q.feedAll ts).behind before' count' := by
  induction ts generalizing p q with
  | nil => exact h
  | cons t ts ih =>
      refine ih ?_
      rw [← feed_behind, ← feed_behind, h]

namespace Adopts

variable {category : Option Line} {p q : Parser} {t : Token}

theorem initial (category : Option Line) : Adopts category (inside category) Parser.initial :=
  ⟨.inl rfl, rfl, rfl, ⟨none, rfl, rfl⟩, List.forall_mem_nil _, rfl, rfl, rfl⟩

theorem phase_iff (h : Adopts category p q) {phase : Phase}
    (collects : phase = .collectProperty ∨ phase = .collectPrompt) :
    p.phase = phase ↔ q.phase = phase := by
  rcases h.phase with same | ⟨hp, hq⟩
  · rw [same]
  · rw [hp, hq]
    rcases collects with rfl | rfl <;> simp

/-- The same action is collected in both from now on. -/
theorem collect (h : Adopts category p q) (d : Draft) (phase : Phase) :
    Adopts category { p with draft := some (d.inside category), phase := phase }
      { q with draft := some (d.inside none), phase := phase } :=
  { h with phase := .inl rfl, draft := ⟨some d, rfl, rfl⟩ }

/-- An action that ends is counted on both sides. -/
theorem flush (h : Adopts category p q) : Adopts category p.flush q.flush := by
  obtain ⟨d?, hp, hq⟩ := h.draft
  unfold Parser.flush
  rw [hp, hq]
  cases d? with
  | none => exact h
  | some d =>
      have counted := h.skipped
      dsimp only [Option.map_some]
      rw [closeBlock_inside, closeBlock_inside, build_inside_none]
      cases built : (d.closeBlock.inside category).build with
      | ok a =>
          refine { h with draft := ⟨none, rfl, rfl⟩, made := ?_, skipped := ?_ }
          · intro b hb
            rcases List.mem_append.1 hb with before | last
            · exact h.made b before
            · cases List.mem_singleton.1 last
              exact madeUnder_of_build category _ built
          · simp only [List.length_append, List.length_singleton]
            omega
      | error refusal =>
          refine { h with draft := ⟨none, rfl, rfl⟩, skipped := ?_ }
          dsimp only
          omega

theorem setProperty (h : Adopts category p q) (indent : Nat) (key value : Line) :
    Adopts category (p.setProperty indent key value) (q.setProperty indent key value) := by
  obtain ⟨d?, hp, hq⟩ := h.draft
  have set (d : Draft) : Adopts category { p with draft := some (d.inside category) }
      { q with draft := some (d.inside none) } :=
    { h with draft := ⟨some d, rfl, rfl⟩ }
  unfold Parser.setProperty
  rw [hp, hq]
  cases d? with
  | none => exact { h with draft := ⟨none, rfl, rfl⟩, sound := rfl }
  | some d =>
      dsimp only [Option.map_some]
      cases Property.ofKey? key with
      | none => exact h
      | some property =>
          cases property with
          | title => exact set { d with title := some (unquote value) }
          | icon => exact set { d with icon := some (unquote value) }
          | selection => exact set { d with selection := some (unquote value) }
          | external => exact set { d with external := some (unquote value) }
          | prompt =>
              dsimp only
              cases indicator? value with
              | none => exact set { d with prompt := some (unquote value) }
              | some width =>
                  exact h.collect { d with block := some { column := width.map (indent + ·) } } _

theorem closeMalformed (h : Adopts category p q) (indented : t.indent ≠ 0) :
    Adopts category (p.closeMalformed t) (q.closeMalformed t) := by
  have ended := h.flush
  have counted := ended.skipped
  have first : (t.indent == 0) = false := by simpa using indented
  unfold Parser.closeMalformed
  simp only [first, Bool.false_eq_true, if_false]
  refine { ended with phase := ?_, skipped := ?_ }
  · dsimp only
    rw [ended.outside]
    cases p.flush.category.isNone with
    | true => exact .inl rfl
    | false => exact .inr ⟨rfl, rfl⟩
  · dsimp only
    split <;> omega

theorem feedOutside (h : Adopts category p q) (stays : t.turns = false) :
    Adopts category (p.feedOutside t) (q.feedOutside t) := by
  have ended := h.flush
  unfold Token.turns at stays
  unfold Parser.feedOutside
  cases shape : t.shape with
  | blank => exact h
  | comment => exact h
  | category key =>
      rw [shape] at stays
      cases stays
  | action key =>
      dsimp only
      rw [ended.within, ended.outside]
      exact { ended with
        phase := .inl rfl
        within := rfl
        outside := rfl
        draft := ⟨some { category := none, name := key, number := t.number }, rfl, rfl⟩ }
  | property key value =>
      dsimp only
      by_cases collects : p.phase = .collectProperty
      · rw [if_pos collects, if_pos ((h.phase_iff (.inl rfl)).1 collects)]
        exact h.setProperty t.indent key value
      · rw [if_neg collects, if_neg fun other => collects ((h.phase_iff (.inl rfl)).2 other)]
        exact h
  | text =>
      rw [shape] at stays
      dsimp only
      split
      · exact h.closeMalformed (by simpa using stays)
      · exact h

theorem feedBlock (h : Adopts category p q) (t : Token) :
    Adopts category (p.feedBlock t) (q.feedBlock t) := by
  obtain ⟨d?, hp, hq⟩ := h.draft
  have unsound : Adopts category { p with draft := d?.map (Draft.inside category), sound := false }
      { q with draft := d?.map (Draft.inside none), sound := false } :=
    { h with draft := ⟨d?, rfl, rfl⟩, sound := rfl }
  unfold Parser.feedBlock
  rw [hp, hq]
  cases d? with
  | none => exact unsound
  | some d =>
      have same (c : Option Line) : (d.inside c).block = d.block := rfl
      have added (line : Line) :
          Adopts category { p with draft := some ((d.inside category).addLine line) }
            { q with draft := some ((d.inside none).addLine line) } :=
        { h with draft := ⟨some (d.addLine line), rfl, rfl⟩ }
      dsimp only [Option.map_some]
      rw [same, same]
      split
      · exact unsound
      · split
        · exact added []
        · split
          · exact added t.line
          · exact h

theorem leaveBlock (h : Adopts category p q) : Adopts category p.leaveBlock q.leaveBlock := by
  obtain ⟨d?, hp, hq⟩ := h.draft
  unfold Parser.leaveBlock
  rw [hp, hq]
  cases d? with
  | none => exact { h with draft := ⟨none, rfl, rfl⟩, sound := rfl }
  | some d =>
      dsimp only [Option.map_some]
      rw [closeBlock_inside, closeBlock_inside]
      exact h.collect d.closeBlock .collectProperty

/-- The two readings stay side by side as long as the category does not change. -/
theorem feed (h : Adopts category p q) (stays : p.turnsAt t = false) :
    Adopts category (p.feed t) (q.feed t) := by
  unfold turnsAt at stays
  unfold Parser.feed
  by_cases inBlock : p.phase = .collectPrompt
  · rw [if_pos inBlock, if_pos ((h.phase_iff (.inr rfl)).1 inBlock)]
    cases continues : continuesBlock t with
    | true => exact h.feedBlock t
    | false => exact h.leaveBlock.feedOutside (by simpa [continues] using stays)
  · rw [if_neg inBlock, if_neg fun other => inBlock ((h.phase_iff (.inr rfl)).2 other)]
    exact h.feedOutside (by simpa [inBlock] using stays)

/-- Once the category changes, they differ in what was made so far and in nothing else. -/
theorem behind_of_closed (h : Adopts category p q) (closed : p.draft = none)
    (category' : Option Line) (phase : Phase) :
    behind [] p.actions.length { p with category := category', phase := phase } =
      behind p.actions 0 { q with category := category', phase := phase } := by
  obtain ⟨d?, hp, hq⟩ := h.draft
  have none_open : d? = none := by simpa [closed] using hp.symm
  rw [none_open, Option.map_none] at hq
  unfold behind
  dsimp only
  rw [closed, hq, h.nothing, h.skipped, h.sound, List.append_nil, List.nil_append, Nat.zero_add,
    Nat.add_comm]

theorem feedOutside_turns (h : Adopts category p q) (turns : t.turns = true) :
    behind [] p.flush.actions.length (p.feedOutside t) =
      behind p.flush.actions 0 (q.feedOutside t) := by
  obtain ⟨-, -, closed, -⟩ := p.flush_frame
  unfold Token.turns at turns
  unfold Parser.feedOutside
  cases shape : t.shape with
  | category key => exact h.flush.behind_of_closed closed _ _
  | text =>
      rw [shape] at turns
      have first : t.indent = 0 := by simpa using turns
      dsimp only
      rw [first, if_pos (by decide), if_pos (by decide)]
      unfold Parser.closeMalformed
      dsimp only
      simp only [first]
      exact h.flush.behind_of_closed closed _ _
  | _ =>
      rw [shape] at turns
      cases turns

theorem flush_actions_leaveBlock (p : Parser) : p.leaveBlock.flush.actions = p.flush.actions := by
  cases hd : p.draft with
  | none => simp [Parser.leaveBlock, Parser.flush, hd]
  | some d => rw [flush_leaveBlock hd]

theorem feed_turns (h : Adopts category p q) (turns : p.turnsAt t = true) :
    behind [] p.flush.actions.length (p.feed t) = behind p.flush.actions 0 (q.feed t) := by
  unfold turnsAt at turns
  rw [Bool.and_eq_true] at turns
  obtain ⟨turns, outside⟩ := turns
  unfold Parser.feed
  by_cases inBlock : p.phase = .collectPrompt
  · have ends : continuesBlock t = false := by simpa [inBlock] using outside
    rw [if_pos inBlock, if_pos ((h.phase_iff (.inr rfl)).1 inBlock), ends,
      ← flush_actions_leaveBlock p]
    exact h.leaveBlock.feedOutside_turns turns
  · rw [if_neg inBlock, if_neg fun other => inBlock ((h.phase_iff (.inr rfl)).2 other)]
    exact h.feedOutside_turns turns

/-- Up to the line that the category changes with, the one reading makes what the other one
    skips; from there on both make the same. -/
theorem feedAll (h : Adopts category p q) (ts : List Token) :
    (p.feedAll ts).flush.actions =
        (p.feedAll (p.lead ts)).flush.actions ++ (q.feedAll ts).flush.actions ∧
      (p.feedAll ts).flush.skipped + (p.feedAll (p.lead ts)).flush.actions.length =
        (q.feedAll ts).flush.skipped ∧
      ∀ a ∈ (p.feedAll (p.lead ts)).flush.actions, MadeUnder category a := by
  induction ts generalizing p q with
  | nil =>
      have ended := h.flush
      refine ⟨?_, ended.skipped.symm, ended.made⟩
      exact ((congrArg _ ended.nothing).trans (List.append_nil _)).symm
  | cons t ts ih =>
      unfold lead
      cases turns : p.turnsAt t with
      | false => exact ih (h.feed turns)
      | true =>
          have same := congrArg Parser.flush (feedAll_behind_eq (h.feed_turns turns) ts)
          rw [flush_behind, flush_behind] at same
          refine ⟨congrArg Parser.actions same, ?_, h.flush.made⟩
          have counted := congrArg Parser.skipped same
          dsimp only [behind] at counted
          rw [Nat.zero_add, Nat.add_comm] at counted
          exact counted

end Adopts

/-! ### A single document -/

/-- Where a category is expected none is open. -/
def Headed (p : Parser) : Prop :=
  p.phase = .expectCategory → p.category = none

namespace Headed

variable {p : Parser}

theorem setProperty (collects : p.phase = .collectProperty) (indent : Nat) (key value : Line) :
    (p.setProperty indent key value).Headed := by
  have elsewhere : p.Headed := fun first => by cases collects.symm.trans first
  unfold Parser.setProperty
  split
  · exact elsewhere
  · split
    · exact elsewhere
    · exact elsewhere
    · exact elsewhere
    · exact elsewhere
    · exact elsewhere
    · split
      · exact fun first => Phase.noConfusion first
      · exact elsewhere

theorem closeMalformed (p : Parser) (t : Token) : (p.closeMalformed t).Headed := by
  unfold Parser.closeMalformed
  dsimp only
  split
  · exact fun _ => rfl
  · intro first
    cases open_category : p.flush.category with
    | none => rfl
    | some key =>
        dsimp only at first
        rw [open_category] at first
        cases first

theorem feedOutside (h : p.Headed) (t : Token) : (p.feedOutside t).Headed := by
  unfold Parser.feedOutside
  cases t.shape with
  | blank => exact h
  | comment => exact h
  | category key => exact fun first => Phase.noConfusion first
  | action key => exact fun first => Phase.noConfusion first
  | property key value =>
      dsimp only
      split
      · exact setProperty ‹p.phase = .collectProperty› t.indent key value
      · exact h
  | text =>
      dsimp only
      split
      · exact closeMalformed p t
      · exact h

theorem feed (h : p.Headed) (t : Token) : (p.feed t).Headed := by
  unfold Parser.feed
  by_cases inBlock : p.phase = .collectPrompt
  · have elsewhere : p.Headed := fun first => by cases inBlock.symm.trans first
    rw [if_pos inBlock]
    split
    · unfold feedBlock
      split
      · split
        · exact elsewhere
        · split
          · exact elsewhere
          · split <;> exact elsewhere
      · exact elsewhere
    · refine feedOutside ?_ t
      unfold leaveBlock
      split
      · exact fun first => Phase.noConfusion first
      · exact elsewhere
  · rw [if_neg inBlock]
    exact h.feedOutside t

theorem feedAll (h : p.Headed) (ts : List Token) : (p.feedAll ts).Headed := by
  induction ts generalizing p with
  | nil => exact h
  | cons t ts ih => exact ih (h.feed t)

end Headed

/-! ### The document after a document -/

/-- Behind the end of a document nothing is left of it but what was made and the category. -/
theorem Coherent.finish_eq {p : Parser} (h : p.Coherent) :
    behind [] 0 p.finish = behind p.finish.actions p.finish.skipped (inside p.category) := by
  obtain ⟨-, same, closed, sound⟩ := p.flush_frame
  unfold Parser.finish behind Parser.inside
  dsimp only [Parser.initial]
  rw [closed, same, sound, h.sound, List.nil_append, List.append_nil, Nat.zero_add, Nat.add_zero,
    Option.map_none]

/-- What comes behind the end of a document is read as if it stood in the last category. -/
theorem Coherent.feedAll_finish {p : Parser} (h : p.Coherent) (ts : List Token) :
    (p.finish.feedAll ts).finish.actions =
        p.finish.actions ++ ((inside p.category).feedAll ts).flush.actions ∧
      (p.finish.feedAll ts).finish.skipped =
        p.finish.skipped + ((inside p.category).feedAll ts).flush.skipped := by
  have same := congrArg Parser.flush (feedAll_behind_eq h.finish_eq ts)
  rw [flush_behind, flush_behind] at same
  refine ⟨congrArg Parser.actions same, ?_⟩
  exact (Nat.zero_add _).symm.trans (congrArg Parser.skipped same)

/-- The second document gives what it gives on its own. -/
def ReadApart (first second : List Token) : Prop :=
  ((initial.feedAll first).finish.feedAll second).finish.actions =
      (initial.feedAll first).finish.actions ++ (initial.feedAll second).finish.actions ∧
    ((initial.feedAll first).finish.feedAll second).finish.skipped =
      (initial.feedAll first).finish.skipped + (initial.feedAll second).finish.skipped

instance (first second : List Token) : Decidable (ReadApart first second) :=
  inferInstanceAs (Decidable (_ ∧ _))

/-- In a document no category is open where one is expected. Its end leaves the category open, so
    that the next document gives to it the actions in front of the first line that opens or
    closes a category; on its own it skips them. All else comes of the two documents as on their
    own. So they are read apart exactly if the second one has no action to give away, for one if
    the first one ends in no category or in an unknown one. -/
theorem documents_read_apart_iff (first second : List Token) :
    let p := initial.feedAll first
    let whole := (p.finish.feedAll second).finish
    let alone := (initial.feedAll second).finish
    let given := adopted p.category second
    ((p.phase = .expectCategory → p.category = none) ∧ p.finish.phase = .expectCategory ∧
        p.finish.category = p.category) ∧
      (whole.actions = p.finish.actions ++ (given ++ alone.actions) ∧
        whole.skipped + given.length = p.finish.skipped + alone.skipped) ∧
      (∀ a ∈ given, MadeUnder p.category a) ∧
      (ReadApart first second ↔ given = []) := by
  intro p whole alone given
  have headed : p.Headed := Headed.feedAll (fun _ => rfl) first
  obtain ⟨-, kept, -, -⟩ := p.flush_frame
  obtain ⟨actions, skipped⟩ := (Coherent.initial.feedAll first).feedAll_finish second
  obtain ⟨made, counted, under⟩ := (Adopts.initial p.category).feedAll second
  have all : whole.actions = p.finish.actions ++ (given ++ alone.actions) :=
    actions.trans (congrArg _ made)
  have sum : whole.skipped + given.length = p.finish.skipped + alone.skipped := by
    have counted' : ((inside p.category).feedAll second).flush.skipped + given.length =
        alone.skipped := counted
    have skipped' : whole.skipped =
        p.finish.skipped + ((inside p.category).feedAll second).flush.skipped := skipped
    omega
  refine ⟨⟨headed, rfl, kept⟩, ⟨all, sum⟩, under, ?_, ?_⟩
  · rintro ⟨apart, -⟩
    have same := all.symm.trans apart
    rw [List.append_cancel_left_eq] at same
    exact List.self_eq_append_left.1 same.symm
  · intro none_given
    rw [none_given] at all sum
    exact ⟨all, sum⟩

/-- A document that ends in a prompt block. -/
def unclosed : List Token :=
  tokens "rewrite:\n  a:\n    title: A\n    prompt: |\n      Say x".toList

/-- A document with an action in front of its first category, which has no title. -/
def untitled : List Token :=
  tokens "  b:\n    icon: i\nreview:\n  c:\n    title: C".toList

/-- A document of an action alone, and its action in a category. -/
def homeless : List Token :=
  tokens "  d:\n    title: D".toList

def housed : Action := { category := .known .rewriting, name := "d", title := "D" }

theorem untitled_reads_apart :
    ReadApart unclosed untitled ∧
      (housed ∈ adopted (initial.feedAll unclosed).category homeless ∧
        MadeUnder (initial.feedAll unclosed).category housed) ∧
      ((initial.feedAll (tokens "no header".toList)).phase = .expectCategory ∧
        (initial.feedAll (tokens "no header".toList)).category = none) := by
  have apart := (documents_read_apart_iff unclosed untitled).2.2.2
  have under := (documents_read_apart_iff unclosed homeless).2.2.1
  have headed := (documents_read_apart_iff (tokens "no header".toList) untitled).1.1
  have given : housed ∈ adopted (initial.feedAll unclosed).category homeless := by decide +kernel
  have first : (initial.feedAll (tokens "no header".toList)).phase = .expectCategory := by
    decide +kernel
  exact ⟨apart.2 (by decide +kernel), ⟨given, under housed given⟩, first, headed first⟩

/-- The category of a finished document adopts an action. -/
theorem finished_category_adopts :
    (initial.feedAll (tokens "rewrite:".toList)).finish.phase = .expectCategory ∧
      ¬ReadApart (tokens "rewrite:".toList) homeless ∧
      ((initial.feedAll (tokens "rewrite:".toList)).finish.feedAll homeless).finish.actions =
        [housed] := by
  decide +kernel

end Parser

end ActionEngine.Config

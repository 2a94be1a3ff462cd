import ActionEngine.Proofs.Config.Block
import ActionEngine.Proofs.Config.Grouping

/-!
# Reading printed rows

The parser is followed over the rows of a printed action: the header opens it, the
properties fill it, and whatever ends it next makes the action that was printed, with
its prompt in normal form.
-/

namespace ActionEngine

open Text

/-- The action as it is read back: its prompt is in normal form, and an empty icon is
    none. -/
def Action.reread (a : Action) : Action :=
  { a with prompt := String.ofList (Config.normalPrompt a.prompt.toList)
           icon := a.icon.filter (· != "") }

/-- The name is a key, and title and icon stand on one line. -/
structure Action.Writable (a : Action) : Prop where
  name : ∀ c ∈ a.name.toList, Config.isKeyChar c = true
  named : a.name ≠ ""
  title : IsLine a.title.toList
  titled : a.title ≠ ""
  icon : ∀ icon, a.icon = some icon → IsLine icon.toList

namespace Config

/-! ### Values -/

theorem tight_inQuotes (value : String) : Tight (inQuotes value) :=
  .between rfl rfl value.toList

theorem unquote_inQuotes (value : String) : unquote (inQuotes value) = value.toList := by
  unfold unquote
  rw [(tight_inQuotes value).trim_eq]
  unfold inQuotes
  cases value.toList with
  | nil => rfl
  | cons c rest =>
      have last : (c :: rest ++ ['"']).getLast? = some '"' := List.getLast?_concat
      have front : (c :: rest ++ ['"']).dropLast = c :: rest := List.dropLast_concat
      rw [List.cons_append] at last front
      simp [last, front]

theorem tight_flagWord (b : Bool) : Tight (flagWord b) := by
  cases b <;> decide

theorem flag_flagWord (default b : Bool) : flag default (some (unquote (flagWord b))) = b := by
  cases b <;> cases default <;> decide

namespace Parser

/-- Take rows that are numbered from a given number on. -/
def read (p : Parser) (n : Nat) (rows : List Line) : Parser :=
  p.feedAll (Token.ofLinesFrom n rows)

theorem read_nil (p : Parser) (n : Nat) : p.read n [] = p := rfl

theorem read_cons (p : Parser) (n : Nat) (row : Line) (rows : List Line) :
    p.read n (row :: rows) = (p.feed (Token.ofLine n row)).read (n + 1) rows := rfl

theorem read_append (p : Parser) (n : Nat) (rows rows' : List Line) :
    p.read n (rows ++ rows') = (p.read n rows).read (n + rows.length) rows' := by
  induction rows generalizing p n with
  | nil => rfl
  | cons row rows ih =>
      rw [List.cons_append, read_cons, ih, read_cons, List.length_cons]
      congr 1
      omega

/-- The parser collects an action in a category, behind some actions and none skipped. -/
def collecting (category : Option Line) (actions : List Action) (d : Draft) : Parser :=
  ⟨.collectProperty, category, some d, actions, 0, true⟩

def collectingBlock (category : Option Line) (actions : List Action) (d : Draft)
    (b : Block) : Parser :=
  ⟨.collectPrompt, category, some { d with block := some b }, actions, 0, true⟩

variable {category : Option Line} {actions : List Action} {d : Draft}

/-! ### Properties -/

def put (d : Draft) (value : Line) : Property → Draft
  | .title => { d with title := some value }
  | .icon => { d with icon := some value }
  | .selection => { d with selection := some value }
  | .external => { d with external := some value }
  | .prompt => { d with prompt := some value }

/-- A printed property gives its value to the draft, unless it opens a prompt block. -/
theorem feed_property (n : Nat) {key : String} {value : Line} {property : Property}
    (hkey : isPropertyKey key.toList = true) (named : Property.ofKey? key.toList = some property)
    (tight : Tight value) (hne : value ≠ [])
    (inline : property = .prompt → indicator? value = none) :
    (collecting category actions d).feed (Token.ofLine n (propertyRow key value)) =
      collecting category actions (put d (unquote value) property) := by
  rw [ofLine_propertyRow n hkey tight hne]
  change (collecting category actions d).setProperty propertyColumn key.toList value = _
  unfold setProperty collecting
  dsimp only
  rw [named]
  cases property with
  | prompt =>
      dsimp only
      rw [inline rfl]
      rfl
  | _ => rfl

theorem inQuotes_ne_nil (value : String) : inQuotes value ≠ [] := by
  simp [inQuotes]

theorem flagWord_ne_nil (b : Bool) : flagWord b ≠ [] := by
  cases b <;> decide

/-! ### Prompts -/

theorem feed_content (b : Block) {t : Token} (shape : t.shape ≠ .blank)
    (indent : propertyColumn ≤ t.indent) :
    (collectingBlock category actions d b).feed t =
      collectingBlock category actions d (b.add t.line) := by
  have continues : continuesBlock t = true := by simp [continuesBlock, indent]
  have inBlock : (collectingBlock category actions d b).phase = .collectPrompt := rfl
  unfold feed
  rw [if_pos inBlock, if_pos continues]
  simp [feedBlock, collectingBlock, shape, indent, Draft.addLine]

theorem feed_promptRow (n : Nat) (b : Block) (row : Line) :
    (collectingBlock category actions d b).feed (Token.ofLine n (promptRow row)) =
      collectingBlock category actions d (b.add (contentRow row)) := by
  cases blank : allBlank row with
  | true =>
      rw [ofLine_promptRow_of_allBlank n blank, contentRow_of_allBlank blank]
      rfl
  | false =>
      obtain ⟨shape, indent, line⟩ := ofLine_promptRow n blank
      rw [feed_content b shape indent, line, contentRow_of_not_allBlank blank]
      rfl

theorem read_blockRows (n : Nat) (b : Block) (rows : List Line) :
    (collectingBlock category actions d b).read n (rows.map promptRow) =
      collectingBlock category actions d { b with lines := b.lines ++ rows.map contentRow } := by
  induction rows generalizing n b with
  | nil => simp [read_nil]
  | cons row rows ih =>
      rw [List.map_cons, read_cons, feed_promptRow, ih]
      simp [Block.add]

/-- The rows of a prompt have left a draft that holds it in normal form, as soon as its
    block is closed. -/
def HasPrompt (p : Parser) (category : Option Line) (actions : List Action) (d : Draft)
    (prompt : String) : Prop :=
  ∃ phase d', p = ⟨phase, category, some d', actions, 0, true⟩ ∧
    d'.closeBlock = { d with prompt := some (normalPrompt prompt.toList) } ∧
    (phase = .collectPrompt → d'.block.isSome = true)

theorem read_block (n : Nat) {prompt : String} {column : Option Nat} (hblock : d.block = none)
    (h : column = some contentColumn ∨ column = none ∧ needsWidth (lines prompt.toList) = false) :
    HasPrompt ((collectingBlock category actions d ⟨[], column⟩).read n
      ((lines prompt.toList).map promptRow)) category actions d prompt := by
  rw [read_blockRows, List.nil_append]
  refine ⟨_, _, rfl, ?_, fun _ => rfl⟩
  unfold Draft.closeBlock
  dsimp only
  rw [prompt_contentRows h, hblock]
  rfl

theorem read_promptRows (n : Nat) (prompt : String) (hblock : d.block = none) :
    HasPrompt ((collecting category actions d).read n (promptRows prompt)) category actions d
      prompt := by
  unfold promptRows
  cases blank : allBlank prompt.toList with
  | true =>
      have tight : Tight "\"\"".toList := by decide
      rw [if_pos rfl, read_cons, feed_property n rfl rfl tight (by decide) fun _ => rfl, read_nil]
      refine ⟨.collectProperty, { d with prompt := some [] }, rfl, ?_, Phase.noConfusion⟩
      rw [normalPrompt_of_allBlank blank]
      unfold Draft.closeBlock
      rw [hblock]
  | false =>
      rw [if_neg Bool.false_ne_true]
      dsimp only
      cases width : needsWidth (lines prompt.toList) with
      | true =>
          have tight : Tight ['|', '2'] := by decide
          rw [if_pos rfl, read_cons, ofLine_propertyRow n rfl tight (by decide)]
          exact read_block (n + 1) hblock (.inl rfl)
      | false =>
          have tight : Tight ['|'] := by decide
          rw [if_neg Bool.false_ne_true, read_cons, ofLine_propertyRow n rfl tight (by decide)]
          exact read_block (n + 1) hblock (.inr ⟨rfl, width⟩)

/-! ### Actions -/

theorem read_iconRows (n : Nat) (icon : Option String) (hicon : d.icon = none) :
    (collecting category actions d).read n (iconRows icon) =
      collecting category actions
        { d with icon := (icon.filter (· != "")).map String.toList } := by
  unfold iconRows
  cases icon with
  | none =>
      rw [read_nil, Option.filter_none, Option.map_none, ← hicon]
  | some icon =>
      by_cases empty : icon = ""
      · subst empty
        have dropped : ((some "").filter (· != "")).map String.toList = d.icon := by
          rw [hicon]
          rfl
        dsimp only
        rw [if_pos (by decide), read_nil, dropped]
      · have kept : (some icon).filter (· != "") = some icon :=
          Option.filter_some_pos (by simpa using empty)
        dsimp only
        rw [if_neg (by simpa using empty), read_cons,
          feed_property n rfl rfl (tight_inQuotes icon) (inQuotes_ne_nil icon) Property.noConfusion,
          unquote_inQuotes, read_nil, kept]
        rfl

end Parser

/-- A draft with the values of an action makes that action. -/
theorem build_draft {d : Draft} {a : Action} {key : Line} {c : Category}
    (category : d.category = some key) (coerced : Category.ofText? (String.ofList key) = some c)
    (name : d.name = a.name.toList) (title : d.title = some a.title.toList)
    (titled : a.title ≠ "") (icon : d.icon = (a.icon.filter (· != "")).map String.toList)
    (selection : d.selection = some (unquote (flagWord a.needsSelection)))
    (external : d.external = some (unquote (flagWord a.external)))
    (prompt : d.prompt = some (normalPrompt a.prompt.toList)) :
    d.build = .ok ((a.under c).reread) := by
  unfold Draft.build Action.reread Action.under
  rw [category, title]
  dsimp only
  rw [coerced]
  cases ht : a.title.toList with
  | nil => exact absurd (String.toList_eq_nil_iff.1 ht) titled
  | cons t rest =>
      dsimp only
      rw [← ht, String.ofList_toList, name, String.ofList_toList, selection, external, prompt,
        flag_flagWord, flag_flagWord, icon]
      cases hicon : a.icon.filter (· != "") with
      | none => rfl
      | some i =>
          have hne : i ≠ "" := by simpa using (Option.filter_eq_some_iff.1 hicon).2
          cases hi : i.toList with
          | nil => exact absurd (String.toList_eq_nil_iff.1 hi) hne
          | cons _ _ =>
              rw [Option.map_some, hi]
              dsimp only
              rw [← hi, String.ofList_toList]
              rfl

theorem closeBlock_of_block_none {d : Draft} (h : d.block = none) : d.closeBlock = d := by
  unfold Draft.closeBlock
  rw [h]

theorem closeBlock_block (d : Draft) : d.closeBlock.block = none := by
  unfold Draft.closeBlock
  cases h : d.block with
  | none => exact h
  | some b => rfl

theorem closeBlock_closeBlock (d : Draft) : d.closeBlock.closeBlock = d.closeBlock :=
  closeBlock_of_block_none (closeBlock_block d)

theorem closeBlock_addLine_nil (d : Draft) : (d.addLine []).closeBlock = d.closeBlock := by
  obtain ⟨category, name, number, title, icon, selection, external, prompt, block⟩ := d
  cases block with
  | none => rfl
  | some b => simp only [Draft.addLine, Draft.closeBlock, Option.map_some, prompt_add_nil]

/-! ### What the parser holds -/

/-- Whatever ends the open action next, the parser has these actions in a category and has
    skipped none. -/
structure Parser.Holds (p : Parser) (category : Option Line) (actions : List Action) : Prop where
  category : p.category = category
  actions : p.flush.actions = actions
  skipped : p.flush.skipped = 0
  sound : p.sound = true
  pending : p.phase = .collectPrompt → ∃ d, p.draft = some d ∧ d.block.isSome = true

namespace Parser

theorem flush_frame (p : Parser) :
    p.flush.phase = p.phase ∧ p.flush.category = p.category ∧ p.flush.draft = none ∧
      p.flush.sound = p.sound := by
  unfold flush
  split
  · exact ⟨rfl, rfl, ‹p.draft = none›, rfl⟩
  · split <;> exact ⟨rfl, rfl, rfl, rfl⟩

theorem flush_addLine_nil {p : Parser} {d : Draft} (hd : p.draft = some d) :
    flush { p with draft := some (d.addLine []) } = p.flush := by
  unfold flush
  rw [hd]
  dsimp only
  rw [closeBlock_addLine_nil]

/-- A block that is left makes the same action as one that is cut off by the end. -/
theorem flush_leaveBlock {p : Parser} {d : Draft} (hd : p.draft = some d) :
    p.leaveBlock.flush = { p.flush with phase := .collectProperty } := by
  unfold leaveBlock flush
  rw [hd]
  dsimp only
  rw [closeBlock_closeBlock]
  cases d.closeBlock.build <;> rfl

/-- An open block takes a blank line, and every line from the property column on. -/
theorem feedBlock_eq {p : Parser} {d : Draft} (hd : p.draft = some d)
    (hb : d.block.isSome = true) (t : Token) :
    p.feedBlock t =
      if t.shape = .blank then { p with draft := some (d.addLine []) }
      else if propertyColumn ≤ t.indent then { p with draft := some (d.addLine t.line) }
      else p := by
  have noneOpen : ¬d.block.isNone = true := by simpa [Option.isSome_iff_ne_none] using hb
  unfold feedBlock
  rw [hd]
  exact if_neg noneOpen

theorem feed_blank {p : Parser} {d : Draft} (n : Nat) (inBlock : p.phase = .collectPrompt)
    (hd : p.draft = some d) (hb : d.block.isSome = true) :
    p.feed (Token.ofLine n []) = { p with draft := some (d.addLine []) } := by
  have continues : continuesBlock (Token.ofLine n []) = true := rfl
  unfold feed
  rw [if_pos inBlock, if_pos continues, feedBlock_eq hd hb]
  rfl

theorem feed_blank_unsound {p : Parser} (n : Nat) (inBlock : p.phase = .collectPrompt)
    (h : ¬∃ d, p.draft = some d ∧ d.block.isSome = true) :
    (p.feed (Token.ofLine n [])).sound = false := by
  have continues : continuesBlock (Token.ofLine n []) = true := rfl
  unfold feed
  rw [if_pos inBlock, if_pos continues]
  unfold feedBlock
  cases hd : p.draft with
  | none => rfl
  | some d =>
      have noneOpen : d.block.isNone = true := by
        by_contra hb
        exact h ⟨d, hd, by simpa [Option.isSome_iff_ne_none] using hb⟩
      dsimp only
      rw [if_pos noneOpen]

namespace Holds

variable {p : Parser} {category : Option Line} {actions : List Action}

theorem flush_eq (h : p.Holds category actions) :
    p.flush = ⟨p.phase, category, none, actions, 0, true⟩ := by
  obtain ⟨phase, same, closed, sound⟩ := p.flush_frame
  rw [← phase, ← h.category, ← same, ← closed, ← h.actions, ← h.skipped, ← h.sound, ← sound]

theorem of_idle {phase : Phase} (hphase : phase ≠ .collectPrompt) :
    Holds ⟨phase, category, none, actions, 0, true⟩ category actions :=
  ⟨rfl, rfl, rfl, rfl, fun h => absurd h hphase⟩

/-- Before a line that is no content of a block, the block is closed. -/
theorem feed_outside (h : p.Holds category actions) {t : Token}
    (ends : continuesBlock t = false) :
    ∃ q : Parser, q.Holds category actions ∧ q.phase ≠ .collectPrompt ∧
      p.feed t = q.feedOutside t := by
  unfold feed
  by_cases inBlock : p.phase = .collectPrompt
  · obtain ⟨d, hd, open_⟩ := h.pending inBlock
    have left :
        p.leaveBlock = { p with draft := some d.closeBlock, phase := .collectProperty } := by
      unfold leaveBlock
      rw [hd]
    have closed := flush_leaveBlock hd
    refine ⟨p.leaveBlock, ⟨?_, ?_, ?_, ?_, ?_⟩, ?_, ?_⟩
    · rw [left]
      exact h.category
    · rw [closed]
      exact h.actions
    · rw [closed]
      exact h.skipped
    · rw [left]
      exact h.sound
    · rw [left]
      exact Phase.noConfusion
    · rw [left]
      exact Phase.noConfusion
    · rw [if_pos inBlock, ends, if_neg Bool.false_ne_true]
  · exact ⟨p, h, inBlock, if_neg inBlock⟩

theorem feed_category (h : p.Holds category actions) (n : Nat) (line key : Line) :
    p.feed ⟨n, 0, line, .category key⟩ = ⟨.expectAction, some key, none, actions, 0, true⟩ := by
  obtain ⟨q, hq, -, fed⟩ := h.feed_outside (t := ⟨n, 0, line, .category key⟩) rfl
  rw [fed]
  unfold feedOutside
  dsimp only
  rw [hq.flush_eq]

theorem feed_action (h : p.Holds category actions) (n : Nat) (line key : Line) :
    p.feed ⟨n, actionColumn, line, .action key⟩ =
      collecting category actions { category := category, name := key, number := n } := by
  obtain ⟨q, hq, -, fed⟩ := h.feed_outside (t := ⟨n, actionColumn, line, .action key⟩) rfl
  rw [fed]
  unfold feedOutside
  dsimp only
  rw [hq.flush_eq]
  rfl

/-- A blank line makes no difference to what the parser holds. -/
theorem feed_blank_iff (n : Nat) :
    (p.feed (Token.ofLine n [])).Holds category actions ↔ p.Holds category actions := by
  by_cases inBlock : p.phase = .collectPrompt
  · by_cases open_ : ∃ d, p.draft = some d ∧ d.block.isSome = true
    · obtain ⟨d, hd, hb⟩ := open_
      have closed := flush_addLine_nil hd
      have kept : (d.addLine []).block.isSome = true := by
        unfold Draft.addLine
        rw [Option.isSome_map, hb]
      rw [feed_blank n inBlock hd hb]
      constructor
      · intro h
        exact ⟨h.category, closed ▸ h.actions, closed ▸ h.skipped, h.sound, fun _ => ⟨d, hd, hb⟩⟩
      · intro h
        exact ⟨h.category, closed ▸ h.actions, closed ▸ h.skipped, h.sound,
          fun _ => ⟨_, rfl, kept⟩⟩
    · constructor
      · intro h
        have lost := h.sound
        rw [feed_blank_unsound n inBlock open_] at lost
        cases lost
      · intro h
        exact absurd (h.pending inBlock) open_
  · have kept : p.feed (Token.ofLine n []) = p := if_neg inBlock
    rw [kept]

theorem read_blanks_iff (n k : Nat) :
    (p.read n (List.replicate k [])).Holds category actions ↔ p.Holds category actions := by
  induction k generalizing p n with
  | zero => exact Iff.rfl
  | succ k ih =>
      rw [List.replicate_succ, read_cons, ih]
      exact feed_blank_iff n

/-- An action that can be built is made as soon as its prompt block is closed. -/
theorem of_hasPrompt {d : Draft} {a : Action} {prompt : String}
    (h : HasPrompt p category actions d prompt)
    (built : { d with prompt := some (normalPrompt prompt.toList) }.build = .ok a) :
    p.Holds category (actions ++ [a]) := by
  obtain ⟨phase, d', rfl, closed, open_⟩ := h
  have flushed : (⟨phase, category, some d', actions, 0, true⟩ : Parser).flush =
      ⟨phase, category, none, actions ++ [a], 0, true⟩ := by
    unfold flush
    dsimp only
    rw [closed, built]
  exact ⟨rfl, congrArg Parser.actions flushed, congrArg Parser.skipped flushed, rfl,
    fun inBlock => ⟨d', rfl, open_ inBlock⟩⟩

/-- The rows of an action make that action, under the category they stand in. -/
theorem read_action {key : Line} {c : Category} {a : Action} (h : p.Holds (some key) actions)
    (coerced : Category.ofText? (String.ofList key) = some c) (writable : a.Writable) (n : Nat) :
    (p.read n (actionRows a)).Holds (some key) (actions ++ [(a.under c).reread]) := by
  have hne : a.name.toList ≠ [] := mt String.toList_eq_nil_iff.1 writable.named
  have header : Token.ofLine n (atColumn actionColumn (a.name.toList ++ [':'])) =
      ⟨n, actionColumn, _, .action a.name.toList⟩ :=
    ofLine_header n (by decide) writable.name hne rfl
  unfold actionRows
  rw [List.cons_append, List.cons_append, read_cons, header, h.feed_action, read_cons,
    feed_property _ rfl rfl (tight_inQuotes a.title) (inQuotes_ne_nil _) Property.noConfusion,
    read_append, read_iconRows _ _ rfl, read_cons,
    feed_property _ rfl rfl (tight_flagWord _) (flagWord_ne_nil _) Property.noConfusion, read_cons,
    feed_property _ rfl rfl (tight_flagWord _) (flagWord_ne_nil _) Property.noConfusion]
  have title : some (unquote (inQuotes a.title)) = some a.title.toList :=
    congrArg some (unquote_inQuotes a.title)
  exact of_hasPrompt (read_promptRows _ a.prompt rfl)
    (build_draft rfl coerced rfl title writable.titled rfl rfl rfl rfl)

theorem read_actions {key : Line} {c : Category} (as : List Action)
    (h : p.Holds (some key) actions) (coerced : Category.ofText? (String.ofList key) = some c)
    (writable : ∀ a ∈ as, a.Writable) (n : Nat) :
    (p.read n (as.flatMap actionRows)).Holds (some key)
      (actions ++ as.map fun a => (a.under c).reread) := by
  induction as generalizing p n actions with
  | nil => simpa [read_nil] using h
  | cons a as ih =>
      have first := h.read_action coerced (writable a (by simp)) n
      have rest := ih first (fun b hb => writable b (List.mem_cons_of_mem _ hb))
        (n + (actionRows a).length)
      rw [List.flatMap_cons, read_append]
      simpa using rest

theorem read_group {c : Category} (as : List Action) (h : p.Holds category actions)
    (writable : ∀ a ∈ as, a.Writable) (n : Nat) :
    (p.read n (groupRows (c, as))).Holds (some c.word.toList)
      (actions ++ as.map fun a => (a.under c).reread) := by
  have key : ∀ ch ∈ c.word.toList, isKeyChar ch = true :=
    List.all_eq_true.1 (by cases c <;> decide)
  have hne : c.word.toList ≠ [] := by
    cases c <;> decide
  have header : Token.ofLine n (atColumn 0 (c.word.toList ++ [':'])) =
      ⟨n, 0, _, .category c.word.toList⟩ := ofLine_header n (by decide) key hne rfl
  change Token.ofLine n (c.word.toList ++ [':']) = _ at header
  unfold groupRows
  dsimp only
  rw [List.cons_append, read_cons, header, h.feed_category, read_append]
  have opened : Holds ⟨.expectAction, some c.word.toList, none, actions, 0, true⟩
      (some c.word.toList) actions := .of_idle Phase.noConfusion
  have coerced : Category.ofText? (String.ofList c.word.toList) = some c := by
    rw [String.ofList_toList, c.ofText?_word]
  exact (feed_blank_iff _).2 (opened.read_actions as coerced writable _)

theorem read_groups (groups : List (Category × List Action)) (h : p.Holds category actions)
    (writable : ∀ g ∈ groups, ∀ a ∈ g.2, a.Writable) (n : Nat) :
    ∃ category', (p.read n (groups.flatMap groupRows)).Holds category'
      (actions ++ groups.flatMap fun g => g.2.map fun a => (a.under g.1).reread) := by
  induction groups generalizing p n category actions with
  | nil => exact ⟨category, by simpa [read_nil] using h⟩
  | cons g groups ih =>
      have first := h.read_group (c := g.1) g.2 (writable g (by simp)) n
      obtain ⟨category', rest⟩ := ih first (fun g' hg => writable g' (List.mem_cons_of_mem _ hg))
        (n + (groupRows g).length)
      refine ⟨category', ?_⟩
      rw [List.flatMap_cons, read_append]
      simpa using rest

/-- Comments in front of everything change nothing. -/
theorem read_headerRows (header : Option String) (n : Nat) :
    initial.read n (headerRows header) = initial := by
  have comments : ∀ (rows : List Line) (n : Nat),
      initial.read n (rows.map fun row => trimRight ('#' :: ' ' :: row)) = initial := by
    intro rows
    induction rows with
    | nil => exact fun n => rfl
    | cons row rows ih =>
        intro n
        have skip : initial.feed (Token.ofLine n (trimRight ('#' :: ' ' :: row))) = initial := by
          change initial.feedOutside _ = initial
          unfold feedOutside
          rw [ofLine_comment]
        rw [List.map_cons, read_cons, skip, ih]
  unfold headerRows
  cases header with
  | none => rfl
  | some text =>
      dsimp only
      split
      · rfl
      · rw [read_append, comments]
        rfl

end Holds

end Parser

end Config

end ActionEngine

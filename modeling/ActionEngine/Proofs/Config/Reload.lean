import ActionEngine.Proofs.Config.RoundTrip

/-!
# Saving what was loaded

Whatever a text says, the actions read from it can be written: their names are keys, and
their titles and icons stand on one line. So all that writing and reading again can
change in them is a prompt that is not in normal form. A block never holds such a prompt,
but a value between quotes may keep blanks at its end or tabs in front.
-/

namespace ActionEngine

open Text Config

/-- What is known of an action that was read from a text. -/
structure Action.Parsed (a : Action) : Prop where
  writable : a.Writable
  known : ∃ c, a.category = .known c
  icon : a.icon ≠ some ""
  prompt : IsNormalPrompt a.prompt.toList ∨ IsLine a.prompt.toList

namespace Config

/-! ### Lines -/

/-- What is known of a classified line, whatever text it stands in. -/
structure Token.Regular (t : Token) : Prop where
  line : IsNormalRow t.line
  key : ∀ key, t.shape = .action key → key ≠ [] ∧ ∀ c ∈ key, isKeyChar c = true
  value : ∀ key value, t.shape = .property key value → IsLine value

theorem value_of_property? {s key value : Line} (h : property? s = some (key, value)) :
    value.Sublist s := by
  unfold property? at h
  rw [List.span_eq_takeWhile_dropWhile] at h
  split at h
  · cases h
  · rename_i rest split
    split at h
    · cases h
    · cases h
      have suffix : (':' :: rest).Sublist s := by
        rw [← (Prod.mk.inj split).2]
        exact List.dropWhile_sublist _
      exact (trim_sublist rest).trans ((List.sublist_cons_self _ _).trans suffix)
  · cases h

theorem ofLine_regular (n : Nat) {raw : Line} (h : IsLine raw) : (Token.ofLine n raw).Regular := by
  cases blank : allBlank raw with
  | true =>
      rw [ofLine_of_allBlank n blank]
      refine ⟨⟨.nil, rfl, by simp⟩, ?_, ?_⟩
      · rintro key ⟨⟩
      · rintro key value ⟨⟩
  | false =>
      refine ⟨?_, ?_, ?_⟩
      · rw [ofLine_of_not_allBlank n blank]
        exact normalRow_normal h
      · intro key hkey
        cases hasShape_of_ofLine hkey Shape.noConfusion with
        | action header placed => exact (header?_eq_some_iff.1 header).1
      · intro key value hvalue
        cases hasShape_of_ofLine hvalue Shape.noConfusion with
        | property split placed =>
            exact (h.sublist (List.dropWhile_sublist _)).trimRight.sublist
              (value_of_property? split)

theorem ofLinesFrom_regular (n : Nat) {rows : List Line} (h : ∀ row ∈ rows, IsLine row) :
    ∀ t ∈ Token.ofLinesFrom n rows, t.Regular := by
  induction rows generalizing n with
  | nil => simp [Token.ofLinesFrom]
  | cons row rows ih =>
      intro t ht
      rcases List.mem_cons.1 ht with rfl | ht
      · exact ofLine_regular n (h row (by simp))
      · exact ih (n + 1) (fun r hr => h r (List.mem_cons_of_mem _ hr)) t ht

theorem tokens_regular (text : List Char) : ∀ t ∈ tokens text, t.Regular :=
  ofLinesFrom_regular 1 (isLine_of_mem_lines _)

/-! ### Blocks and values -/

theorem IsNormalRow.drop {row : Line} (h : IsNormalRow row) {k : Nat} (hk : k ≤ spaces row) :
    IsNormalRow (row.drop k) where
  isLine := h.isLine.sublist (List.drop_sublist k row)
  trimmed := by
    rw [trimRight_eq_self_iff]
    intro c hc
    refine trimRight_eq_self_iff.1 h.trimmed c ?_
    rw [List.getLast?_drop] at hc
    split at hc
    · cases hc
    · exact hc
  spaced := by
    intro c hc
    refine h.spaced c ?_
    have cut : ∀ d ∈ row.take k, isIndentation d = true := by
      intro d hd
      have front : row.take k = (row.takeWhile (· == ' ')).take k := by
        conv_lhs => rw [← List.takeWhile_append_dropWhile (p := (· == ' ')) (l := row)]
        exact List.take_append_of_le_length hk
      rw [front] at hd
      have space := List.mem_takeWhile_imp (List.mem_of_mem_take hd)
      rw [beq_iff_eq.1 space]
      rfl
    rw [← List.take_append_drop k row, List.takeWhile_append_of_pos cut]
    exact List.mem_append_right _ hc

/-- A block holds a prompt in normal form. -/
theorem isNormalPrompt_block {b : Block} (h : ∀ row ∈ b.lines, IsNormalRow row) :
    IsNormalPrompt b.prompt := by
  refine isNormalPrompt_trimRows ?_
  intro row hrow
  obtain ⟨line, hline, rfl⟩ := List.mem_map.1 hrow
  exact (h line hline).drop (Nat.min_le_left _ _)

theorem unquote_sublist (value : Line) : (unquote value).Sublist value := by
  refine List.Sublist.trans ?_ (trim_sublist value)
  unfold unquote
  dsimp only
  split
  · exact List.Sublist.refl _
  · exact List.Sublist.refl _
  · rename_i c rest _ htrim
    split
    · rw [htrim]
      exact (List.dropLast_sublist rest).trans (List.sublist_cons_self c rest)
    · exact List.Sublist.refl _

/-! ### Actions -/

/-- What is known of an action while it is collected. -/
structure Draft.Regular (d : Draft) : Prop where
  name : ∀ c ∈ d.name, isKeyChar c = true
  named : d.name ≠ []
  title : ∀ value, d.title = some value → IsLine value
  icon : ∀ value, d.icon = some value → IsLine value
  prompt : ∀ value, d.prompt = some value → IsNormalPrompt value ∨ IsLine value
  block : ∀ b, d.block = some b → ∀ row ∈ b.lines, IsNormalRow row

namespace Draft.Regular

variable {d : Draft}

theorem closeBlock (h : d.Regular) : d.closeBlock.Regular := by
  unfold Draft.closeBlock
  cases hb : d.block with
  | none => exact h
  | some b =>
      refine ⟨h.name, h.named, h.title, h.icon, ?_, ?_⟩
      · rintro value ⟨⟩
        exact .inl (isNormalPrompt_block (h.block b hb))
      · rintro b' ⟨⟩

theorem addLine (h : d.Regular) {row : Line} (hrow : IsNormalRow row) :
    (d.addLine row).Regular := by
  refine ⟨h.name, h.named, h.title, h.icon, h.prompt, ?_⟩
  intro b' hb' line hline
  obtain ⟨b, hb, rfl⟩ := Option.map_eq_some_iff.1 hb'
  rcases List.mem_append.1 hline with hline | hline
  · exact h.block b hb line hline
  · rw [List.mem_singleton.1 hline]
    exact hrow

theorem ofList_ne_empty {s : List Char} (hne : s ≠ []) : String.ofList s ≠ "" := by
  intro h
  have chars := congrArg String.toList h
  rw [String.toList_ofList] at chars
  exact hne chars

theorem parsed (h : d.Regular) {a : Action} (built : d.build = .ok a) : a.Parsed := by
  unfold Draft.build at built
  split at built
  · cases built
  · split at built
    · cases built
    · split at built
      · cases built
      · cases built
      · rename_i c _ _ title titled htitle
        cases built
        refine ⟨⟨?_, ofList_ne_empty h.named, ?_, ofList_ne_empty titled, ?_⟩, ⟨c, rfl⟩, ?_, ?_⟩
        · dsimp only
          rw [String.toList_ofList]
          exact h.name
        · dsimp only
          rw [String.toList_ofList]
          exact h.title title htitle
        · intro i hi
          dsimp only at hi
          split at hi
          · cases hi
          · cases hi
          · rename_i value _ hvalue
            cases hi
            rw [String.toList_ofList]
            exact h.icon value hvalue
        · intro hi
          dsimp only at hi
          split at hi
          · cases hi
          · cases hi
          · rename_i value hne _
            exact ofList_ne_empty hne (Option.some.inj hi)
        · dsimp only
          rw [String.toList_ofList]
          cases hprompt : d.prompt with
          | none => exact .inr .nil
          | some value => exact h.prompt value hprompt

end Draft.Regular

namespace Parser

/-- What is known of the parser behind any lines. -/
structure Regular (p : Parser) : Prop where
  draft : ∀ d, p.draft = some d → d.Regular
  actions : ∀ a ∈ p.actions, a.Parsed

namespace Regular

variable {p : Parser}

theorem initial : Parser.initial.Regular := by
  refine ⟨?_, ?_⟩
  · rintro d ⟨⟩
  · rintro a ⟨⟩

theorem of_draft (h : p.Regular) {d : Draft} (hd : d.Regular) (phase : Phase) :
    Regular { p with draft := some d, phase := phase } := by
  refine ⟨?_, h.actions⟩
  rintro d' ⟨⟩
  exact hd

theorem flush (h : p.Regular) : p.flush.Regular := by
  unfold Parser.flush
  cases hd : p.draft with
  | none => exact h
  | some d =>
      dsimp only
      cases built : d.closeBlock.build with
      | ok action =>
          refine ⟨?_, ?_⟩
          · rintro d' ⟨⟩
          · intro a ha
            rcases List.mem_append.1 ha with ha | ha
            · exact h.actions a ha
            · rw [List.mem_singleton.1 ha]
              exact (h.draft d hd).closeBlock.parsed built
      | error refusal =>
          refine ⟨?_, h.actions⟩
          rintro d' ⟨⟩

theorem setProperty (h : p.Regular) (indent : Nat) (key : Line) {value : Line}
    (hvalue : IsLine value) : (p.setProperty indent key value).Regular := by
  have unquoted : IsLine (unquote value) := hvalue.sublist (unquote_sublist value)
  unfold Parser.setProperty
  cases hd : p.draft with
  | none =>
      refine ⟨?_, h.actions⟩
      rintro d ⟨⟩
  | some d =>
      have hd := h.draft d hd
      dsimp only
      split
      · exact h
      · refine h.of_draft ?_ _
        refine ⟨hd.name, hd.named, ?_, hd.icon, hd.prompt, hd.block⟩
        rintro _ ⟨⟩
        exact unquoted
      · refine h.of_draft ?_ _
        refine ⟨hd.name, hd.named, hd.title, ?_, hd.prompt, hd.block⟩
        rintro _ ⟨⟩
        exact unquoted
      · refine h.of_draft ?_ _
        exact ⟨hd.name, hd.named, hd.title, hd.icon, hd.prompt, hd.block⟩
      · refine h.of_draft ?_ _
        exact ⟨hd.name, hd.named, hd.title, hd.icon, hd.prompt, hd.block⟩
      · split
        · refine h.of_draft ?_ _
          refine ⟨hd.name, hd.named, hd.title, hd.icon, hd.prompt, ?_⟩
          rintro _ ⟨⟩ row ⟨⟩
        · refine h.of_draft ?_ _
          refine ⟨hd.name, hd.named, hd.title, hd.icon, ?_, hd.block⟩
          rintro _ ⟨⟩
          exact .inr unquoted

theorem closeMalformed (h : p.Regular) (t : Token) : (p.closeMalformed t).Regular := by
  unfold Parser.closeMalformed
  dsimp only
  split <;> exact ⟨h.flush.draft, h.flush.actions⟩

theorem feedOutside (h : p.Regular) {t : Token} (ht : t.Regular) : (p.feedOutside t).Regular := by
  unfold Parser.feedOutside
  split
  · exact h
  · exact h
  · exact ⟨h.flush.draft, h.flush.actions⟩
  · rename_i key hkey
    obtain ⟨named, name⟩ := ht.key key hkey
    refine h.flush.of_draft ⟨name, named, ?_, ?_, ?_, ?_⟩ _ <;> rintro _ ⟨⟩
  · rename_i key value hvalue
    split
    · exact h.setProperty t.indent key (ht.value key value hvalue)
    · exact h
  · split
    · exact h.closeMalformed t
    · exact h

theorem feedBlock (h : p.Regular) {t : Token} (ht : t.Regular) : (p.feedBlock t).Regular := by
  unfold Parser.feedBlock
  cases hd : p.draft with
  | none =>
      refine ⟨?_, h.actions⟩
      rintro d ⟨⟩
  | some d =>
      have hd' := h.draft d hd
      dsimp only
      split
      · exact ⟨fun d' h' => h.draft d' (hd.trans h'), h.actions⟩
      · split
        · exact h.of_draft (hd'.addLine ⟨.nil, rfl, by simp⟩) _
        · split
          · exact h.of_draft (hd'.addLine ht.line) _
          · exact h

theorem leaveBlock (h : p.Regular) : p.leaveBlock.Regular := by
  unfold Parser.leaveBlock
  cases hd : p.draft with
  | none =>
      refine ⟨?_, h.actions⟩
      rintro d ⟨⟩
  | some d => exact h.of_draft (h.draft d hd).closeBlock _

theorem feed (h : p.Regular) {t : Token} (ht : t.Regular) : (p.feed t).Regular := by
  unfold Parser.feed
  split
  · split
    · exact h.feedBlock ht
    · exact h.leaveBlock.feedOutside ht
  · exact h.feedOutside ht

theorem feedAll (h : p.Regular) {ts : List Token} (hts : ∀ t ∈ ts, t.Regular) :
    (p.feedAll ts).Regular := by
  induction ts generalizing p with
  | nil => exact h
  | cons t ts ih =>
      exact ih (h.feed (hts t (by simp))) fun t' ht' => hts t' (List.mem_cons_of_mem _ ht')

end Regular

end Parser

/-- Every action that is read from a text can be written. -/
theorem parsed_of_mem_parseActions {text : Option String} {a : Action}
    (h : a ∈ parseActions text) : a.Parsed := by
  cases text with
  | none => cases h
  | some s =>
      have regular := Parser.Regular.initial.feedAll (tokens_regular s.toList)
      exact regular.flush.actions a h

/-! ### Loading what was saved -/

theorem map_eq_self_iff {α : Type} {f : α → α} {as : List α} :
    as.map f = as ↔ ∀ a ∈ as, f a = a := by
  conv_lhs => rhs; rw [← List.map_id as]
  exact List.map_inj_left

theorem under_of_known {a : Action} {c : Category} (h : a.category = .known c) :
    a.under c = a := by
  unfold Action.under
  rw [← h]

theorem mem_regrouped_of_known {actions : List Action}
    (known : ∀ a ∈ actions, ∃ c, a.category = .known c) {a : Action} :
    a ∈ regrouped actions ↔ a ∈ actions := by
  rw [mem_regrouped]
  constructor
  · rintro ⟨b, hb, c, hc, rfl⟩
    obtain ⟨k, hk⟩ := known b hb
    rw [hk] at hc
    cases hc
    rwa [under_of_known hk]
  · intro ha
    obtain ⟨c, hc⟩ := known a ha
    exact ⟨a, ha, c, by rw [hc]; rfl, (under_of_known hc).symm⟩

theorem reread_of_parsed {a : Action} (h : a.Parsed) :
    a.reread = { a with prompt := String.ofList (normalPrompt a.prompt.toList) } := by
  unfold Action.reread
  rw [filter_icon h.icon]

/-- What was loaded from any text and saved is loaded again, group by group, with nothing
    changed but the prompts, which are brought into normal form. So all of it is unchanged
    exactly if every prompt that was loaded is in normal form, and a prompt that is not
    stood on one line. -/
theorem reload (text : Option String) (header : Option String) :
    parseActions (some (render (parseActions text) header)) =
        (regrouped (parseActions text)).map
          (fun a => { a with prompt := String.ofList (normalPrompt a.prompt.toList) }) ∧
      (parseActions (some (render (parseActions text) header)) = regrouped (parseActions text) ↔
        ∀ a ∈ parseActions text, IsNormalPrompt a.prompt.toList) ∧
      ∀ a ∈ parseActions text, IsNormalPrompt a.prompt.toList ∨ IsLine a.prompt.toList := by
  have parsed : ∀ a ∈ parseActions text, a.Parsed := fun a ha => parsed_of_mem_parseActions ha
  have members : ∀ a, a ∈ regrouped (parseActions text) ↔ a ∈ parseActions text :=
    fun a => mem_regrouped_of_known fun b hb => (parsed b hb).known
  have back : parseActions (some (render (parseActions text) header)) =
      (regrouped (parseActions text)).map Action.reread := by
    obtain ⟨category, holds⟩ := holds_render (fun a ha => (parsed a ha).writable) header
    exact holds.actions
  refine ⟨?_, ?_, fun a ha => (parsed a ha).prompt⟩
  · rw [back]
    exact List.map_congr_left fun a ha => reread_of_parsed (parsed a ((members a).1 ha))
  · rw [back, map_eq_self_iff]
    constructor
    · intro same a ha
      exact (reread_eq_self_iff.1 (same a ((members a).2 ha))).1
    · intro normal a ha
      have ha := (members a).1 ha
      exact reread_eq_self_iff.2 ⟨normal a ha, (parsed a ha).icon⟩

/-- A prompt between quotes that ends with a blank. -/
def paddedText : String :=
  "rewrite:\n  a:\n    title: A\n    prompt: \"p \"\n"

theorem padded_prompt_changes :
    ¬parseActions (some (render (parseActions (some paddedText)))) =
      regrouped (parseActions (some paddedText)) := by
  decide +kernel

end Config

end ActionEngine

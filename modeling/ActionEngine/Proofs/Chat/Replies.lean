import ActionEngine.Proofs.Chat.Attempts
import ActionEngine.Proofs.Fields

/-!
# Attempts at a single request

A request is sent again and again until an attempt settles it: it was replied to, or it failed
for good, or no attempt is left. The same data is sent every time, and the caller gets the text
of the last attempt's reply, or its fault.
-/

namespace ActionEngine.Chat

/-! ### What is sent -/

section Sent

variable {s : ClientSettings} {r : Request} {found : List Value}

theorem messages_eq (given : items r.messages = .ok found) (nonempty : found ≠ [])
    (records : ∀ m ∈ found, m.isRecord = true) : messages r.messages = .ok found := by
  have no_other : found.any (fun m => !m.isRecord) = false := by
    simpa using records
  have first : found.isEmpty = false := by
    simpa using nonempty
  unfold messages
  rw [given]
  change (if found.any (fun m => !m.isRecord) then _ else if found.isEmpty then _ else _) = _
  simp [no_other, first]

theorem payload_holds (given : items r.messages = .ok found) (nonempty : found ≠ [])
    (records : ∀ m ∈ found, m.isRecord = true) :
    ∃ fields, payload s r = .ok fields ∧ fields.get? "messages" = some (.list found) := by
  unfold payload
  rw [messages_eq given nonempty records]
  exact ⟨_, rfl, rfl⟩

theorem policyFor_eq {fields : Fields} {limit : Nat} {longest : Binary64}
    (allowed : attemptLimit s.maxRetries = .ok limit) (cap : s.retryMax.toFloat = .ok longest)
    (sendable : unsendable? fields = none) :
    policyFor s fields = .ok ⟨limit, fun n =>
      (waitBase s.retryMin).map fun base => waitAfter base longest n⟩ := by
  unfold policyFor Policy.ofSettings
  rw [allowed, cap]
  change (unsendable? fields).elim _ _ = _
  rw [sendable]
  rfl

end Sent

/-! ### Answers -/

def Turn.answer (t : Turn) : Except Fault Response :=
  match t.fault with
  | none => .ok t.response
  | some fault => .error fault

/-- What the service does with the attempt of a given number, counted from zero. -/
def answerAt (turns : List Turn) (n : Nat) : Except Fault Response :=
  (turns[n]?.map Turn.answer).getD (.error exhausted)

def Settles : Except Fault Response → Prop
  | .ok _ => True
  | .error fault => fault.isRetryable = false

/-- The content of a reply's first choice. -/
def Response.content? : Response → Option Value
  | .contents (c :: _) => some c
  | _ => none

/-- The choices of a reply, if it has any, are a list. -/
def Response.Listed : Response → Prop
  | .choices v => v = .null ∨ ∃ choices, v = .list choices
  | _ => True

theorem Response.text_of_listed {reply : Response} (h : reply.Listed) :
    reply.text = .ok ((reply.content?.map textOf).getD "") := by
  cases reply with
  | contents choices => cases choices <;> rfl
  | blank => rfl
  | choices v =>
      rcases h with rfl | ⟨choices, rfl⟩
      · rfl
      · cases choices <;> rfl

/-! ### One attempt -/

theorem answerAt_eq (turns : List Turn) (n : Nat) :
    answerAt turns n = (attemptAt turns n).answer := by
  unfold answerAt attemptAt
  rw [List.getD_eq_getElem?_getD]
  cases turns[n]? <;> rfl

theorem completeAttempt_eq (payload : Fields) (t : Turn) :
    completeAttempt payload t = { outcome := t.answer, exchanges := [.create payload] } := by
  unfold completeAttempt Turn.answer
  cases t.fault <;> rfl

theorem completeAttempt_mayRepeat (payload : Fields) (t : Turn) :
    (completeAttempt payload t).mayRepeat = false ↔ Settles t.answer := by
  rw [completeAttempt_eq]
  unfold Attempt.mayRepeat Settles
  cases t.answer <;> simp

/-- A request has messages, each of them a record, and what it says has a form in JSON. Then it is
    sent once for each attempt up to the first one that was replied to, or failed for good, or was
    the last one that the settings allow. The same data is sent every time, and nothing else
    passes but the waits between the attempts. The caller gets the fault of the last attempt, or
    the text of its reply, which is empty if that has no choice or no content. -/
theorem complete_follows_last_attempt (s : ClientSettings) (r : Request) (turns : List Turn)
    {found : List Value} {limit : Nat} {shortest longest : Binary64}
    (given : items r.messages = .ok found) (nonempty : found ≠ [])
    (records : ∀ m ∈ found, m.isRecord = true)
    (sendable : ∀ fields, payload s r = .ok fields → unsendable? fields = none)
    (allowed : attemptLimit s.maxRetries = .ok limit)
    (base : waitBase s.retryMin = .ok shortest) (cap : s.retryMax.toFloat = .ok longest) :
    (∀ n, s.maxRetries = .int n → (limit : Int) = max 1 n) ∧
      ∃ fields, payload s r = .ok fields ∧ fields.get? "messages" = some (.list found) ∧
        ∃ k < limit,
          (∀ j < k, ¬Settles (answerAt turns j)) ∧
          (Settles (answerAt turns k) ∨ k + 1 = limit) ∧
          (complete s r turns).2.exchanges =
            ((List.range k).flatMap fun j =>
              [.create fields, .wait (waitAfter shortest longest (j + 1))]) ++ [.create fields] ∧
          (complete s r turns).2.rest = turns.drop (k + 1) ∧
          (∀ fault, answerAt turns k = .error fault →
            (complete s r turns).2.outcome = .error fault) ∧
          ∀ reply, answerAt turns k = .ok reply →
            (complete s r turns).2.outcome = reply.text ∧
            (reply.Listed →
              (complete s r turns).2.outcome = .ok ((reply.content?.map textOf).getD "")) := by
  have positive := attemptLimit_pos allowed
  refine ⟨?_, ?_⟩
  · intro n hn
    rw [hn] at allowed
    have same : (max 1 n).toNat = limit := Except.ok.inj allowed
    omega
  · obtain ⟨fields, sent, messages⟩ := payload_holds (s := s) given nonempty records
    have policy := policyFor_eq allowed cap (sendable fields sent)
    rw [base] at policy
    obtain ⟨k, hk, before, last, same⟩ := Policy.run_decided
      (p := ⟨limit, fun n => .ok (waitAfter shortest longest n)⟩) (completeAttempt fields)
      (fun _ => rfl) positive turns
    simp only [← Bool.not_eq_false, completeAttempt_mayRepeat, ← answerAt_eq] at before last
    have asked : (complete s r turns).2 =
        ⟨(answerAt turns k).bind Response.text,
          passedInVain (completeAttempt fields) 1 (waitAfter shortest longest) turns k ++
            [.create fields], turns.drop (k + 1)⟩ := by
      unfold complete
      rw [sent]
      dsimp only
      rw [policy]
      dsimp only [Except.map]
      rw [same, completeAttempt_eq, answerAt_eq]
    rw [asked]
    refine ⟨fields, sent, messages, k, hk, before, last, ?_, rfl, ?_, ?_⟩
    · simp only [passedInVain, completeAttempt_eq, List.singleton_append, Nat.add_comm 1]
    · intro fault failed
      rw [failed]
      rfl
    · intro reply replied
      rw [replied]
      exact ⟨rfl, fun listed => Response.text_of_listed listed⟩

/-- The service is too busy at first, then it cannot be reached, and then it replies. -/
def busyService : List Turn :=
  [{ fault := some (.status .rateLimit 429 "Slow down") },
    { fault := some (.unreachable "Connection error.") },
    { response := .contents [.text "Clear", .text "Clearer"] }]

theorem busyService_replies_at_last :
    ∃ fields, payload plainSettings plainQuestion = .ok fields ∧
      (complete plainSettings plainQuestion busyService).2.exchanges =
        [.create fields, .wait (waitAfter (Binary64.ofDecimal false 5 (-1))
          (Binary64.ofDecimal false 6 0) 1), .create fields, .wait (waitAfter
            (Binary64.ofDecimal false 5 (-1)) (Binary64.ofDecimal false 6 0) 2),
          .create fields] ∧
      (complete plainSettings plainQuestion busyService).2.outcome = .ok "Clear" := by
  have sendable (fields : Fields) (sent : payload plainSettings plainQuestion = .ok fields) :
      unsendable? fields = none := by
    cases sent
    rfl
  obtain ⟨-, fields, sent, -, k, -, before, last, exchanges, -, -, replied⟩ :=
    complete_follows_last_attempt plainSettings plainQuestion busyService rfl (by decide)
      (by decide) sendable rfl rfl rfl
  have busy (again : Settles (answerAt busyService 0)) : False := Bool.noConfusion again
  have away (again : Settles (answerAt busyService 1)) : False := Bool.noConfusion again
  match k, before, last, exchanges, replied with
  | 0, _, last, _, _ => exact absurd (last.resolve_left busy) (by decide)
  | 1, _, last, _, _ => exact absurd (last.resolve_left away) (by decide)
  | 2, _, _, exchanges, replied => exact ⟨fields, sent, exchanges, (replied _ rfl).1⟩
  | k + 3, before, _, _, _ => exact (before 2 (by omega) trivial).elim

end ActionEngine.Chat

import Mathlib.Data.List.Basic
import ActionEngine.Chat.Client

/-!
# Attempts at a stream

A stream is opened again and again until an attempt decides: it gave the caller
something, or it ended, or it failed for good, or no attempt is left. The main result is
that the caller gets what the deciding attempt gave and nothing of any other one.

The schedule of attempts is the documented one of the retry library: it stops after the
given number, goes on only after a fault that may pass, and raises the last fault.
-/

namespace ActionEngine.Chat

namespace Turn

def deltas (t : Turn) : List Delta :=
  if t.refusal.isSome then [] else t.events.filterMap StreamEvent.delta?

/-- The fault that an attempt at a stream ends with; none if it ends normally. -/
def ending (t : Turn) : Option Fault :=
  t.refusal.or t.fault

def outcome (t : Turn) : Except Fault Unit :=
  match t.ending with
  | none => .ok ()
  | some fault => .error fault

def closing (t : Turn) : List Exchange :=
  if t.refusal.isSome then [] else [.streamClosed]

/-- No attempt follows this one, even if there may be more. -/
def Decides (t : Turn) : Prop :=
  t.deltas ≠ [] ∨ t.ending = none ∨ ∃ fault, t.ending = some fault ∧ fault.isRetryable = false

end Turn

/-- What the service does with the attempt of a given number, counted from zero. -/
def attemptAt (turns : List Turn) (n : Nat) : Turn :=
  turns.getD n .silence

def Exchange.opened? : Exchange → Option Fields
  | .stream payload => some payload
  | _ => none

/-! ### The number of attempts -/

theorem attemptLimit_pos {v : Value} {n : Nat} (h : attemptLimit v = .ok n) : 0 < n := by
  cases v with
  | int m =>
      cases h
      omega
  | bool b =>
      cases h
      decide
  | float x =>
      cases x with
      | nan =>
          cases h
          decide
      | infinite negative =>
          cases h
          cases negative <;> decide
      | finite negative e f =>
          cases h
          split <;> omega
  | _ => cases h

/-- A policy has the attempts that the settings allow, and the waits if they give numbers for
    them. -/
theorem policyFor_eq_ok {s : ClientSettings} {fields : Fields} {policy : Policy}
    (h : policyFor s fields = .ok policy) :
    attemptLimit s.maxRetries = .ok policy.attempts ∧ ∃ limit, s.retryMax.toFloat = .ok limit ∧
      ∀ base, waitBase s.retryMin = .ok base →
        ∀ n, policy.wait n = .ok (waitAfter base limit n) := by
  unfold policyFor Policy.ofSettings at h
  rcases hn : attemptLimit s.maxRetries with fault | n
  · rw [hn] at h
    cases h
  rcases hlimit : s.retryMax.toFloat with fault | limit
  · rw [hn, hlimit] at h
    cases h
  rw [hn, hlimit] at h
  change (unsendable? fields).elim (Except.ok ⟨n, _⟩) Except.error = .ok policy at h
  cases hfields : unsendable? fields with
  | some fault =>
      rw [hfields] at h
      cases h
  | none =>
      rw [hfields] at h
      cases h
      refine ⟨rfl, limit, rfl, fun base timed n => ?_⟩
      rw [timed]
      rfl

/-! ### The row of attempts -/

section Follow

variable {α : Type} {p : Policy} {seconds : Nat → Binary64} (attempt : Turn → Attempt α)
  (number : Nat)

theorem headD_silence (turns : List Turn) : turns.headD .silence = attemptAt turns 0 := by
  cases turns <;> rfl

theorem attemptAt_tail (turns : List Turn) (n : Nat) :
    attemptAt turns.tail n = attemptAt turns (n + 1) := by
  cases turns <;> rfl

/-- What passes in some attempts that are made in vain, each with the wait behind it. -/
def passedInVain (seconds : Nat → Binary64) (turns : List Turn) (times : Nat) :
    List Exchange :=
  (List.range times).flatMap fun j =>
    (attempt (attemptAt turns j)).exchanges ++ [.wait (seconds (number + j))]

theorem passedInVain_succ (turns : List Turn) (times : Nat) :
    passedInVain attempt number seconds turns (times + 1) =
      (attempt (attemptAt turns 0)).exchanges ++ .wait (seconds number) ::
        passedInVain attempt (number + 1) seconds turns.tail times := by
  unfold passedInVain
  rw [List.range_succ_eq_map, List.flatMap_cons, List.flatMap_map, List.append_assoc,
    List.singleton_append]
  congr 2
  refine List.flatMap_congr fun j _ => ?_
  rw [attemptAt_tail, show number + j.succ = number + 1 + j by omega]

/-- The attempts end with one that is not to be repeated. -/
theorem Policy.follow_of_final (left : Nat) {turns : List Turn}
    (final : (attempt (attemptAt turns 0)).mayRepeat = false) :
    p.follow attempt number left turns = ((attempt (attemptAt turns 0)).yielded,
      ⟨(attempt (attemptAt turns 0)).outcome, (attempt (attemptAt turns 0)).exchanges,
        turns.drop 1⟩) := by
  rw [follow.eq_def, headD_silence, List.drop_one]
  exact if_pos (by rw [final]; rfl)

/-- They end with the last one that is allowed, too. -/
theorem Policy.follow_last (timed : ∀ n, p.wait n = .ok (seconds n)) (turns : List Turn) :
    p.follow attempt number 0 turns = ((attempt (attemptAt turns 0)).yielded,
      ⟨(attempt (attemptAt turns 0)).outcome, (attempt (attemptAt turns 0)).exchanges,
        turns.drop 1⟩) := by
  rw [follow.eq_def, headD_silence, timed, List.drop_one]
  exact ite_self _

/-- After an attempt in vain the next one is made. -/
theorem Policy.follow_again (timed : ∀ n, p.wait n = .ok (seconds n)) (left : Nat)
    {turns : List Turn} (again : (attempt (attemptAt turns 0)).mayRepeat = true) :
    p.follow attempt number (left + 1) turns =
      let (yielded, later) := p.follow attempt (number + 1) left turns.tail
      let exchanges := (attempt (attemptAt turns 0)).exchanges ++
        .wait (seconds number) :: later.exchanges
      (yielded, { later with exchanges }) := by
  rw [follow.eq_def, headD_silence, timed]
  exact if_neg (by rw [again]; decide)

/-- The attempts go on to the first one that is not to be repeated, or to the last one that is
    allowed. The call comes to what this attempt came to, and the turns behind it are left. -/
theorem Policy.follow_decided (timed : ∀ n, p.wait n = .ok (seconds n)) (left : Nat)
    (turns : List Turn) :
    ∃ k, (∀ j < k, (attempt (attemptAt turns j)).mayRepeat = true) ∧
      (k < left ∧ (attempt (attemptAt turns k)).mayRepeat = false ∨ k = left) ∧
      p.follow attempt number left turns = ((attempt (attemptAt turns k)).yielded,
        ⟨(attempt (attemptAt turns k)).outcome,
          passedInVain attempt number seconds turns k ++
            (attempt (attemptAt turns k)).exchanges, turns.drop (k + 1)⟩) := by
  induction left generalizing number turns with
  | zero => exact ⟨0, by simp, .inr rfl, follow_last attempt number timed turns⟩
  | succ left ih =>
      cases again : (attempt (attemptAt turns 0)).mayRepeat with
      | false =>
          exact ⟨0, by simp, .inl ⟨Nat.succ_pos left, again⟩,
            follow_of_final attempt number (left + 1) again⟩
      | true =>
          obtain ⟨k, before, last, same⟩ := ih (number + 1) turns.tail
          simp only [attemptAt_tail] at before last same
          refine ⟨k + 1, ?_, ?_, ?_⟩
          · intro j hj
            cases j with
            | zero => exact again
            | succ j => exact before j (by omega)
          · rcases last with ⟨hk, decided⟩ | hk
            · exact .inl ⟨by omega, decided⟩
            · exact .inr (by omega)
          · rw [follow_again attempt number timed left again, same, passedInVain_succ,
              List.drop_tail, List.append_assoc, List.cons_append]

/-- The attempts that a policy allows: the call comes to what the deciding one came to. -/
theorem Policy.run_decided (timed : ∀ n, p.wait n = .ok (seconds n))
    (positive : 0 < p.attempts) (turns : List Turn) :
    ∃ k < p.attempts, (∀ j < k, (attempt (attemptAt turns j)).mayRepeat = true) ∧
      ((attempt (attemptAt turns k)).mayRepeat = false ∨ k + 1 = p.attempts) ∧
      p.run attempt turns = ((attempt (attemptAt turns k)).yielded,
        ⟨(attempt (attemptAt turns k)).outcome,
          passedInVain attempt 1 seconds turns k ++ (attempt (attemptAt turns k)).exchanges,
          turns.drop (k + 1)⟩) := by
  obtain ⟨k, before, last, same⟩ := p.follow_decided attempt 1 timed (p.attempts - 1) turns
  refine ⟨k, ?_, before, ?_, same⟩
  · rcases last with ⟨hk, -⟩ | hk <;> omega
  · rcases last with ⟨-, decided⟩ | hk
    · exact .inl decided
    · exact .inr (by omega)

end Follow

/-! ### One attempt -/

theorem Reader.take_all (seen : Nat) (ds : List Delta) :
    Reader.take {} seen ds = (ds, false) := by
  induction ds generalizing seen with
  | nil => rfl
  | cons d ds ih => simp [Reader.take, ih]

/-- An attempt at a stream that is read to its end. -/
theorem streamAttempt_all (payload : Fields) (t : Turn) :
    streamAttempt payload {} t = ⟨t.deltas, t.outcome, .stream payload :: t.closing⟩ := by
  unfold streamAttempt Turn.outcome Turn.ending Turn.deltas Turn.closing
  rw [Reader.take_all]
  cases t.refusal with
  | some fault => rfl
  | none => cases t.fault <;> rfl

theorem streamAttempt_mayRepeat (payload : Fields) (t : Turn) :
    (streamAttempt payload {} t).mayRepeat = false ↔ t.Decides := by
  rw [streamAttempt_all]
  unfold Attempt.mayRepeat Turn.Decides Turn.outcome
  cases t.ending with
  | none => simp
  | some fault => cases passes : fault.isRetryable <;> simp [passes]

theorem opened_once (payload : Fields) (t : Turn) :
    (Exchange.stream payload :: t.closing).filterMap Exchange.opened? = [payload] := by
  unfold Turn.closing
  split <;> rfl

/-- Every attempt at a stream opens it once. -/
theorem opened_passedInVain (payload : Fields) (number : Nat) (seconds : Nat → Binary64)
    (turns : List Turn) (times : Nat) :
    (passedInVain (streamAttempt payload {}) number seconds turns times).filterMap
      Exchange.opened? = List.replicate times payload := by
  induction times generalizing number turns with
  | zero => rfl
  | succ times ih =>
      rw [passedInVain_succ, List.filterMap_append, List.filterMap_cons_none rfl, ih,
        streamAttempt_all, opened_once]
      rfl

/-- The waits between attempts are to be numbers. A stream that is read to its end is then opened
    once for each attempt up to the first one that gave something, or ended normally, or failed
    for good, or was the last one that the settings allow. The caller gets what this attempt
    gave, nothing from any other one, and is left with its end or its fault. -/
theorem stream_follows_one_attempt (s : ClientSettings) (r : Request) (turns : List Turn)
    {fields : Fields} {policy : Policy} {base : Binary64} (sent : payload s r = .ok fields)
    (allowed : policyFor s fields = .ok policy) (timed : waitBase s.retryMin = .ok base) :
    (∀ n, s.maxRetries = .int n → (policy.attempts : Int) = max 1 n) ∧
      ∃ k < policy.attempts,
        (∀ j < k, ¬(attemptAt turns j).Decides) ∧
        ((attemptAt turns k).Decides ∨ k + 1 = policy.attempts) ∧
        (stream s r {} turns).2.1 = (attemptAt turns k).deltas ∧
        (stream s r {} turns).2.2.outcome = (attemptAt turns k).outcome ∧
        (stream s r {} turns).2.2.exchanges.filterMap Exchange.opened? =
          List.replicate (k + 1) fields ∧
        (stream s r {} turns).2.2.rest = turns.drop (k + 1) := by
  obtain ⟨limit, cap, -, waits⟩ := policyFor_eq_ok allowed
  refine ⟨?_, ?_⟩
  · intro n hn
    rw [hn] at limit
    have same : (max 1 n).toNat = policy.attempts := Except.ok.inj limit
    omega
  · have read : (stream s r {} turns).2 = policy.run (streamAttempt fields {}) turns := by
      unfold stream
      rw [sent]
      dsimp only
      rw [allowed]
    obtain ⟨k, hk, before, last, same⟩ :=
      policy.run_decided (streamAttempt fields {}) (waits base timed) (attemptLimit_pos limit)
        turns
    simp only [← Bool.not_eq_false, streamAttempt_mayRepeat] at before last
    rw [read, same, streamAttempt_all]
    refine ⟨k, hk, before, last, rfl, rfl, ?_, rfl⟩
    rw [List.filterMap_append, opened_passedInVain, opened_once, List.replicate_succ']

/-- Three attempts are allowed. The first one is refused, the second one fails before it
    gives anything, and the third one fails after its first text. -/
def brokenStream : List Turn :=
  [{ refusal := some .timedOut },
    { events := [{ kind := .text "chunk" }], fault := some (.unreachable "Connection error.") },
    { events := [{ kind := .text "content.delta", delta := .text "Text" }],
      fault := some .timedOut }]

/-- A question to a client with the usual settings. -/
def plainQuestion : Request where
  messages := .list [.record [("role", .text "user"), ("content", .text "Hi")]]

def plainSettings : ClientSettings where
  baseUrl := .text "http://local"
  apiKey := .text "key"
  model := .text "model"

theorem brokenStream_follows_one_attempt :
    ∃ fields policy, payload plainSettings plainQuestion = .ok fields ∧
      policyFor plainSettings fields = .ok policy ∧
      ((∀ n, plainSettings.maxRetries = .int n → (policy.attempts : Int) = max 1 n) ∧
      ∃ k < policy.attempts,
        (∀ j < k, ¬(attemptAt brokenStream j).Decides) ∧
        ((attemptAt brokenStream k).Decides ∨ k + 1 = policy.attempts) ∧
        (stream plainSettings plainQuestion {} brokenStream).2.1 =
          (attemptAt brokenStream k).deltas ∧
        (stream plainSettings plainQuestion {} brokenStream).2.2.outcome =
          (attemptAt brokenStream k).outcome ∧
        (stream plainSettings plainQuestion {} brokenStream).2.2.exchanges.filterMap
          Exchange.opened? = List.replicate (k + 1) fields ∧
        (stream plainSettings plainQuestion {} brokenStream).2.2.rest =
          brokenStream.drop (k + 1)) :=
  ⟨_, _, rfl, rfl, stream_follows_one_attempt plainSettings plainQuestion brokenStream rfl rfl rfl⟩

end ActionEngine.Chat

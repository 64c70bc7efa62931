import FilterQuery.Proofs.Number.Words
import FilterQuery.Proofs.Session.Run
import Mathlib.Data.List.Forall2

/-!
# Answers of a provider

What an answer of Salesforce means. The parts of an answer are described without the code
that takes them apart: the header that says when to try again, the rows, and the words about
a failure. Main statement: an answer is a success just by its status, and gives its rows;
any other answer gives a failure that keeps the status, the words and the wait.
-/

namespace FilterQuery

/-! ## Letters of either case -/

/-- A capital letter and the same letter in lower case. -/
def IsCapitalOf (c d : Char) : Prop :=
  'A' ≤ c ∧ c ≤ 'Z' ∧ d.toNat = c.toNat + 32

/-- The two characters are the same, or one ASCII letter in its two cases. -/
def SameLetter (c d : Char) : Prop :=
  c = d ∨ IsCapitalOf c d ∨ IsCapitalOf d c

theorem isCapitalOf_iff {c d : Char} :
    IsCapitalOf c d ↔ 65 ≤ c.toNat ∧ c.toNat ≤ 90 ∧ d.toNat = c.toNat + 32 :=
  Iff.rfl

theorem toNat_toLower (c : Char) :
    c.toLower.toNat = if 65 ≤ c.toNat ∧ c.toNat ≤ 90 then c.toNat + 32 else c.toNat := by
  unfold Char.toLower
  split
  · next capital =>
    have bounds : 65 ≤ c.toNat ∧ c.toNat ≤ 90 := capital
    have sum : (c.val + ('a'.val - 'A'.val)).toNat = (c.toNat + 32) % 2 ^ 32 :=
      UInt32.toNat_add _ _
    rw [if_pos bounds]
    exact sum.trans (Nat.mod_eq_of_lt (by omega))
  · next other => exact (if_neg other).symm

theorem toLower_eq_toLower_iff {c d : Char} : c.toLower = d.toLower ↔ SameLetter c d := by
  rw [SameLetter, ← Char.toNat_inj, ← Char.toNat_inj, toNat_toLower, toNat_toLower,
    isCapitalOf_iff, isCapitalOf_iff]
  split <;> split <;> omega

theorem sameLetters_iff {s t : String} :
    sameLetters s t = true ↔ List.Forall₂ SameLetter s.toList t.toList := by
  rw [sameLetters, decide_eq_true_iff, lowerCase, lowerCase, String.ofList_inj,
    ← List.forall₂_eq_eq_eq, List.forall₂_map_left_iff, List.forall₂_map_right_iff]
  simp only [toLower_eq_toLower_iff]

/-! ## Failures -/

namespace ProviderFailure

variable {s : UInt16} {text : String} {wait : Option UInt64}

/-- A failure keeps the status that it is made from. -/
@[simp]
theorem status_ofStatus : (ofStatus s text wait).status = s := by
  unfold ofStatus
  split_ifs <;> simp only [status, *]

/-- A failure keeps the words that it is made with. -/
theorem exists_message_ofStatus : ∃ front, (ofStatus s text wait).message = front ++ text := by
  unfold ofStatus
  split_ifs <;> exact ⟨_, rfl⟩

/-- Only too many requests have a wait. -/
@[simp]
theorem retryAfterMs_ofStatus :
    (ofStatus s text wait).retryAfterMs = if s = 429 then wait else none := by
  by_cases many : s = 429
  · subst many
    rfl
  · rw [if_neg many, ofStatus, if_neg many]
    split_ifs <;> rfl

end ProviderFailure

/-! ## The parts of an answer -/

namespace Response

/-- The status is one of the successes. -/
def Succeeds (r : Response) : Prop :=
  200 ≤ r.status.toNat ∧ r.status.toNat ≤ 299

/-- The name of the header that says when to try again, in letters of either case. -/
def IsRetryAfter (name : String) : Prop :=
  List.Forall₂ SameLetter name.toList "Retry-After".toList

/-- No two headers of the answer say when to try again. -/
def HasOneWait (r : Response) : Prop :=
  ∀ h ∈ r.headers, ∀ h' ∈ r.headers, IsRetryAfter h.1 → IsRetryAfter h'.1 → h = h'

/-- The answer asks for a wait of `seconds`. -/
def AsksToWait (r : Response) (seconds : Nat) : Prop :=
  ∃ name value, (name, value) ∈ r.headers ∧ IsRetryAfter name ∧ WritesCount value seconds

/-- The answer is an object with an array of rows. -/
def HasRows (r : Response) (rows : List Json) : Prop :=
  ∃ ms, r.data = .object ms ∧ Members.get? "records" ms = some (.array rows)

/-- The answer is an array whose first element has a text as its message. -/
def Explains (r : Response) (detail : String) : Prop :=
  ∃ ms rest, r.data = .array (.object ms :: rest) ∧
    Members.get? "message" ms = some (.string detail)

variable {r : Response}

theorem isRetryAfter_iff {name : String} :
    IsRetryAfter name ↔ sameLetters name "retry-after" = true := by
  have lower : lowerCase "Retry-After" = lowerCase "retry-after" := by decide
  rw [IsRetryAfter, ← sameLetters_iff, sameLetters, sameLetters, lower]

/-- Where one header at most says when to try again, it is found wherever it stands. -/
theorem header?_eq_some_iff (one : r.HasOneWait) {value : String} :
    r.header? "retry-after" = some value ↔
      ∃ name, (name, value) ∈ r.headers ∧ IsRetryAfter name := by
  rw [header?, Option.map_eq_some_iff]
  constructor
  · rintro ⟨⟨name, _⟩, found, rfl⟩
    obtain ⟨named, -⟩ := List.find?_eq_some_iff_append.1 found
    exact ⟨name, List.mem_of_find?_eq_some found, isRetryAfter_iff.2 named⟩
  · rintro ⟨name, listed, named⟩
    cases found : r.headers.find? fun h => sameLetters h.1 "retry-after" with
    | none =>
      have other := List.find?_eq_none.1 found _ listed
      exact absurd (isRetryAfter_iff.1 named) other
    | some h =>
      obtain ⟨first, -⟩ := List.find?_eq_some_iff_append.1 found
      rw [one h (List.mem_of_find?_eq_some found) _ listed (isRetryAfter_iff.2 first) named]
      exact ⟨_, rfl, rfl⟩

/-- The wait in milliseconds, if there are too many requests and a word holds it. -/
theorem retryAfterMs?_eq_some_iff (one : r.HasOneWait) {ms : UInt64} :
    r.retryAfterMs? = some ms ↔ r.status = 429 ∧ ∃ seconds, r.AsksToWait seconds ∧
      1000 * seconds < 2 ^ 64 ∧ ms.toNat = 1000 * seconds := by
  unfold retryAfterMs?
  rw [Option.ite_none_right_eq_some]
  refine and_congr_right fun _ => ?_
  simp only [Option.bind_eq_bind, Option.bind_eq_some_iff, header?_eq_some_iff one,
    readWord?_trimBlanks_eq_some_iff, Option.ite_none_right_eq_some, Option.some.injEq]
  constructor
  · rintro ⟨value, ⟨name, listed, named⟩, seconds, writes, fits, rfl⟩
    refine ⟨seconds.toNat, ⟨name, value, listed, named, writes⟩, by omega, ?_⟩
    rw [UInt64.toNat_ofNat']
    omega
  · rintro ⟨seconds, ⟨name, value, listed, named, writes⟩, fits, wait⟩
    have word : (UInt64.ofNat seconds).toNat = seconds := by
      rw [UInt64.toNat_ofNat']
      omega
    refine ⟨value, ⟨name, listed, named⟩, UInt64.ofNat seconds, word.symm ▸ writes, ?_, ?_⟩
    · rw [word]
      omega
    · rw [word, ← UInt64.toNat_inj, UInt64.toNat_ofNat']
      omega

theorem detail?_eq_some_iff {detail : String} : r.detail? = some detail ↔ r.Explains detail := by
  unfold detail? Explains
  constructor
  · intro h
    split at h
    · next first rest data =>
      split at h
      · next s found =>
        cases h
        cases first with
        | object ms => exact ⟨ms, rest, data, found⟩
        | null | bool | number | string | array => cases found
      · cases h
    · cases h
  · rintro ⟨ms, rest, data, found⟩
    simp only [data, Json.get?, found]

theorem hasRows_iff {rows : List Json} :
    r.HasRows rows ↔ r.data.get? "records" = some (.array rows) := by
  unfold HasRows
  cases r.data with
  | object ms => simp [Json.get?]
  | null | bool | number | string | array => simp [Json.get?]

theorem records_cases (r : Response) :
    r.HasRows r.records ∨ r.records = [] ∧ ∀ rows, ¬r.HasRows rows := by
  simp only [hasRows_iff, records]
  split
  · next rows found => exact .inl found
  · next none => exact .inr ⟨rfl, none⟩

theorem succeeds_iff : r.Succeeds ↔ 200 ≤ r.status ∧ r.status < 300 :=
  and_congr_right' Nat.lt_succ_iff.symm

/-- The failure of an answer carries the provider's words behind its own. -/
theorem exists_message_failure (r : Response) :
    (∀ detail, r.Explains detail →
      ∃ front, r.failure.message = front ++ ("Salesforce query error: " ++ detail)) ∧
    ((∀ detail, ¬r.Explains detail) →
      ∃ front, r.failure.message = front ++ "Salesforce query error") := by
  obtain ⟨front, message⟩ := @ProviderFailure.exists_message_ofStatus r.status r.failureMessage
    r.retryAfterMs?
  rw [failure, message, failureMessage]
  simp only [← detail?_eq_some_iff]
  refine ⟨fun detail found => ⟨front, by rw [found]⟩, fun none => ⟨front, ?_⟩⟩
  rw [Option.eq_none_iff_forall_ne_some.2 none]

end Response

/-- What the executor makes of an answer to its request. By a status from 200 to 299 alone it
is a success, whose rows are those of the array of records, in order, and none without that
array. Any other answer is a failure of the provider with the status of the answer; its text
ends with the message of the first element, if there is one, and its wait is the number of
seconds that the one header asks for, in milliseconds, just if there are too many requests and
a word holds it. -/
theorem SalesforceConfig.run_executor_classified (c : SalesforceConfig)
    (answer : Request → Outcome Response) (q : Select) (ctx : Option Context)
    (sent : List Request) (r : Response) (answered : answer (c.request q.soql ctx) = .ok r)
    (one : r.HasOneWait) :
    ∃ outcome, ((c.executor (.recorded answer)).run q ctx).run sent =
        (outcome, sent ++ [c.request q.soql ctx]) ∧
      ((∃ rows, outcome = .ok rows) ↔ r.Succeeds) ∧
      (∀ rows, outcome = .ok rows → r.HasRows rows ∨ rows = [] ∧ ∀ others, ¬r.HasRows others) ∧
      (¬r.Succeeds → ∃ f : ProviderFailure, outcome = .error (.provider f) ∧
        f.status = r.status ∧
        (∀ detail, r.Explains detail →
          ∃ front, f.message = front ++ ("Salesforce query error: " ++ detail)) ∧
        ((∀ detail, ¬r.Explains detail) → ∃ front, f.message = front ++ "Salesforce query error") ∧
        ∀ ms : UInt64, f.retryAfterMs = some ms ↔ r.status = 429 ∧ ∃ seconds,
          r.AsksToWait seconds ∧ 1000 * seconds < 2 ^ 64 ∧ ms.toNat = 1000 * seconds) := by
  have run : ((c.executor (.recorded answer)).run q ctx).run sent =
      ((answer (c.request q.soql ctx)).bind Response.rows, sent ++ [c.request q.soql ctx]) := rfl
  refine ⟨r.rows, by rw [run, answered]; rfl, ?_⟩
  by_cases success : r.Succeeds
  · rw [Response.rows_of_success (Response.succeeds_iff.1 success)]
    refine ⟨iff_of_true ⟨_, rfl⟩ success, ?_, fun failed => absurd success failed⟩
    rintro _ ⟨⟩
    exact r.records_cases
  · rw [Response.rows_of_failure (mt Response.succeeds_iff.2 success)]
    refine ⟨iff_of_false nofun success, nofun, fun _ => ⟨r.failure, rfl,
      ProviderFailure.status_ofStatus, r.exists_message_failure.1, r.exists_message_failure.2, ?_⟩⟩
    intro ms
    rw [Response.failure, ProviderFailure.retryAfterMs_ofStatus,
      ← Response.retryAfterMs?_eq_some_iff one]
    unfold Response.retryAfterMs?
    split <;> rfl

/-- An answer with the longest wait that a word of milliseconds holds. -/
def Response.patient : Response where
  status := 429
  headers := [("Sforce-Limit-Info", "api-usage=15000/15000"),
    ("retry-AFTER", "\t+0018446744073709551 ")]
  data := .array [.object [("errorCode", .string "REQUEST_LIMIT_EXCEEDED"),
    ("message", .string "TotalRequests Limit exceeded.")]]

theorem Response.hasOneWait_patient : patient.HasOneWait := by
  have other : ¬IsRetryAfter "Sforce-Limit-Info" := by
    rw [isRetryAfter_iff]
    decide
  simp [HasOneWait, patient, other]

theorem SalesforceConfig.run_executor_classified_patient :
    Response.patient.HasOneWait ∧ ∃ f front, ((({} : SalesforceConfig).executor
        (.recorded fun _ => .ok .patient)).run { model := .deals } none).run [] =
          (.error (.provider f), [({} : SalesforceConfig).request
            "SELECT Id, Name, Amount, Owner.Name FROM Opportunity" none]) ∧
      f.status = 429 ∧ f.retryAfterMs = some 18446744073709551000 ∧
      f.message = front ++ ("Salesforce query error: " ++ "TotalRequests Limit exceeded.") := by
  have one := Response.hasOneWait_patient
  obtain ⟨outcome, run, -, -, failed⟩ := run_executor_classified {} (fun _ => .ok .patient)
    { model := .deals } none [] .patient rfl one
  obtain ⟨f, rfl, status, explained, -, wait⟩ := failed fun success => absurd success.2 (by decide)
  obtain ⟨front, message⟩ := explained "TotalRequests Limit exceeded." ⟨_, _, rfl, rfl⟩
  have asks : Response.patient.AsksToWait 18446744073709551 :=
    ⟨_, _, List.mem_cons_of_mem _ (List.mem_cons_self ..), Response.isRetryAfter_iff.2 (by decide),
      ['\t'], ['+'], "0018446744073709551".toList, [' '], by decide, List.all_eq_true.1 (by decide),
      .inr rfl, ⟨by decide, List.all_eq_true.1 (by decide)⟩, by decide⟩
  exact ⟨one, f, front, run, status, (wait _).2 ⟨rfl, _, asks, by decide, by decide⟩, message⟩

end FilterQuery

import FilterQuery.Proofs.Query.Keys
import FilterQuery.Proofs.Result
import FilterQuery.Session

/-!
# Runs of a query

What a run of a query sends, and what it gives. A transport is any function from
requests to answers; it is made to record the requests. Main statement: a query
that cannot be built, or has no executor, sends nothing; any other sends exactly
one request, and gives either a record for every row of the answer or one error.
-/

namespace FilterQuery

/-- The transport that answers by a function and records the requests. -/
def Transport.recorded (answer : Request → Outcome Response) :
    Transport (StateM (List Request)) where
  send r := modifyGet fun sent => (answer r, sent ++ [r])

/-- A request that asks for a descriptor, with the labels of the caller. -/
structure Request.AsksFor (r : Request) (s : Select) (ctx : Option Context) : Prop where
  method : r.method = .get
  query : r.query = [("q", s.soql)]
  metadata : r.metadata = ctx.bind Context.metadata

namespace Response

variable {r : Response}

theorem rows_of_success (h : 200 ≤ r.status ∧ r.status < 300) : r.rows = .ok r.records := by
  simp [rows, isSuccess, h]

theorem rows_of_failure (h : ¬ (200 ≤ r.status ∧ r.status < 300)) :
    r.rows = .error (.provider r.failure) := by
  simp [rows, isSuccess, h]

end Response

namespace Query

/-- What an answer makes of a query. Either every row gives a record, in the order of
the rows, or the first row that does not fit gives the error, with its position. -/
inductive Settles (q : Query) : Outcome Response → Outcome (List Record) → Prop
  | unreached (e : Error) : Settles q (.error e) (.error e)
  | failed {r : Response} (status : ¬ (200 ≤ r.status ∧ r.status < 300)) :
      Settles q (.ok r) (.error (.provider r.failure))
  | records {r : Response} (status : 200 ≤ r.status ∧ r.status < 300) {rs : List Record}
      (length : rs.length = r.records.length)
      (each : ∀ i row record, r.records[i]? = some row → rs[i]? = some record →
        (q.model.schema.project q.resultKeys).validate (q.model.mapRow q.resultKeys row) i =
          .ok record) :
      Settles q (.ok r) (.ok rs)
  | invalid {r : Response} (status : 200 ≤ r.status ∧ r.status < 300) {i : Nat} {row : Json}
      {e : Invalid} (here : r.records[i]? = some row)
      (unfit : (q.model.schema.project q.resultKeys).validate
        (q.model.mapRow q.resultKeys row) i = .error e)
      (position : e.record = i)
      (first : ∀ j < i, ∀ row, r.records[j]? = some row → ∃ record,
        (q.model.schema.project q.resultKeys).validate (q.model.mapRow q.resultKeys row) j =
          .ok record) :
      Settles q (.ok r) (.error (.validation e))

/-! ## Rows -/

variable {q : Query}

theorem record_of_reconcile_eq_error {i : Nat} {row : Json} {e : Invalid}
    (h : q.reconcile i row = .error e) : e.record = i := by
  unfold reconcile Schema.validate at h
  simp only at h
  split at h
  · cases h
  · cases h
    rfl

theorem reconcileFrom_cons_eq_ok_iff {index : Nat} {row : Json} {rows : List Json}
    {records : List Record} :
    q.reconcileFrom index (row :: rows) = .ok records ↔ ∃ first rest,
      q.reconcile index row = .ok first ∧ q.reconcileFrom (index + 1) rows = .ok rest ∧
        records = first :: rest := by
  rw [reconcileFrom]
  cases q.reconcile index row with
  | error e => simp
  | ok first => cases q.reconcileFrom (index + 1) rows <;> simp [eq_comm]

theorem reconcileFrom_cons_eq_error_iff {index : Nat} {row : Json} {rows : List Json}
    {e : Invalid} :
    q.reconcileFrom index (row :: rows) = .error e ↔ q.reconcile index row = .error e ∨
      ∃ first, q.reconcile index row = .ok first ∧
        q.reconcileFrom (index + 1) rows = .error e := by
  rw [reconcileFrom]
  cases q.reconcile index row with
  | error e => simp
  | ok first => cases q.reconcileFrom (index + 1) rows <;> simp

/-- All rows give a record just if there is a record for every row, made of it. -/
theorem reconcileFrom_eq_ok_iff {index : Nat} {rows : List Json} {records : List Record} :
    q.reconcileFrom index rows = .ok records ↔ records.length = rows.length ∧
      ∀ i row record, rows[i]? = some row → records[i]? = some record →
        q.reconcile (index + i) row = .ok record := by
  induction rows generalizing index records with
  | nil => cases records <;> simp [reconcileFrom]
  | cons row rows ih =>
    rw [reconcileFrom_cons_eq_ok_iff]
    constructor
    · rintro ⟨first, rest, hfirst, hrest, rfl⟩
      obtain ⟨length, each⟩ := ih.1 hrest
      -- the positions of the other rows count from the next index on
      refine ⟨congrArg Nat.succ length, ?_⟩
      rintro (_ | i) row' record hrow hrecord
      · cases hrow
        cases hrecord
        exact hfirst
      · rw [Nat.add_comm i 1, ← Nat.add_assoc]
        exact each i row' record hrow hrecord
    · rintro ⟨length, each⟩
      cases records with
      | nil => cases length
      | cons first rest =>
        refine ⟨first, rest, each 0 row first rfl rfl, ih.2 ⟨Nat.succ.inj length, ?_⟩, rfl⟩
        intro i row' record hrow hrecord
        rw [Nat.add_assoc, Nat.add_comm 1 i]
        exact each (i + 1) row' record hrow hrecord

/-- Rows fail by the first of them that gives no record. -/
theorem reconcileFrom_eq_error_iff {index : Nat} {rows : List Json} {e : Invalid} :
    q.reconcileFrom index rows = .error e ↔ ∃ i row, rows[i]? = some row ∧
      q.reconcile (index + i) row = .error e ∧ ∀ j < i, ∀ row, rows[j]? = some row →
        ∃ record, q.reconcile (index + j) row = .ok record := by
  induction rows generalizing index with
  | nil => simp [reconcileFrom]
  | cons row rows ih =>
    rw [reconcileFrom_cons_eq_error_iff, ih]
    constructor
    · rintro (unfit | ⟨first, hfirst, i, row', here, unfit, fit⟩)
      · exact ⟨0, row, rfl, unfit, fun j hj => absurd hj (Nat.not_lt_zero j)⟩
      · rw [Nat.add_assoc, Nat.add_comm 1 i] at unfit
        refine ⟨i + 1, row', here, unfit, ?_⟩
        rintro (_ | j) hj row'' hrow
        · cases hrow
          exact ⟨first, hfirst⟩
        · rw [Nat.add_comm j 1, ← Nat.add_assoc]
          exact fit j (Nat.lt_of_succ_lt_succ hj) row'' hrow
    · -- the row that fails is the first one, or all before it fit and it is further on
      rintro ⟨_ | i, row', here, unfit, fit⟩
      · cases here
        exact .inl unfit
      · obtain ⟨first, hfirst⟩ := fit 0 (Nat.succ_pos i) row rfl
        rw [Nat.add_comm i 1, ← Nat.add_assoc] at unfit
        refine .inr ⟨first, hfirst, i, row', here, unfit, fun j hj row'' hrow => ?_⟩
        rw [Nat.add_assoc, Nat.add_comm 1 j]
        exact fit (j + 1) (Nat.succ_lt_succ hj) row'' hrow

theorem records_eq_ok_iff {rows : List Json} {rs : List Record} :
    q.records rows = .ok rs ↔ rs.length = rows.length ∧
      ∀ i row record, rows[i]? = some row → rs[i]? = some record →
        q.reconcile i row = .ok record := by
  have all : q.reconcileFrom 0 rows = .ok rs ↔ _ := reconcileFrom_eq_ok_iff
  simp only [Nat.zero_add] at all
  rw [← all, records]
  cases q.reconcileFrom 0 rows with
  | ok records => exact ⟨fun e => congrArg Except.ok (Except.ok.inj e), fun e => e ▸ rfl⟩
  | error e => exact ⟨nofun, nofun⟩

theorem records_eq_error_iff {rows : List Json} {e : Error} :
    q.records rows = .error e ↔ ∃ i row invalid, rows[i]? = some row ∧
      q.reconcile i row = .error invalid ∧ e = .validation invalid ∧
        ∀ j < i, ∀ row, rows[j]? = some row → ∃ record, q.reconcile j row = .ok record := by
  have refused : q.records rows = .error e ↔
      ∃ invalid, q.reconcileFrom 0 rows = .error invalid ∧ e = .validation invalid := by
    rw [records]
    cases q.reconcileFrom 0 rows with
    | ok records => exact ⟨nofun, nofun⟩
    | error invalid =>
      constructor
      · intro h
        exact ⟨invalid, rfl, (Except.error.inj h).symm⟩
      · rintro ⟨_, ⟨⟩, rfl⟩
        rfl
  rw [refused]
  constructor
  · rintro ⟨invalid, h, rfl⟩
    obtain ⟨i, row, here, unfit, first⟩ := reconcileFrom_eq_error_iff.1 h
    simp only [Nat.zero_add] at unfit first
    exact ⟨i, row, invalid, here, unfit, rfl, first⟩
  · rintro ⟨i, row, invalid, here, unfit, rfl, first⟩
    refine ⟨invalid, reconcileFrom_eq_error_iff.2 ⟨i, row, here, ?_⟩, rfl⟩
    simp only [Nat.zero_add]
    exact ⟨unfit, first⟩

/-- What an answer makes of a query is what the rows of the answer are turned into. -/
theorem settles_iff {answer : Outcome Response} {result : Outcome (List Record)} :
    q.Settles answer result ↔ (answer.bind Response.rows).bind q.records = result := by
  constructor
  · rintro (e | status | ⟨status, length, each⟩ | ⟨status, here, unfit, _, first⟩)
    · rfl
    · rw [bind_ok, Response.rows_of_failure status, bind_error]
    · rw [bind_ok, Response.rows_of_success status]
      exact records_eq_ok_iff.2 ⟨length, each⟩
    · rw [bind_ok, Response.rows_of_success status]
      exact records_eq_error_iff.2 ⟨_, _, _, here, unfit, rfl, first⟩
  · rintro rfl
    cases answer with
    | error e => exact .unreached e
    | ok r =>
      rw [bind_ok]
      by_cases status : 200 ≤ r.status ∧ r.status < 300
      · rw [Response.rows_of_success status, bind_ok]
        cases h : q.records r.records with
        | ok rs =>
          obtain ⟨length, each⟩ := records_eq_ok_iff.1 h
          exact .records status length each
        | error e =>
          obtain ⟨i, row, invalid, here, unfit, rfl, first⟩ := records_eq_error_iff.1 h
          exact .invalid status here unfit (record_of_reconcile_eq_error unfit) first
      · rw [Response.rows_of_failure status]
        exact .failed status

/-! ## Limits -/

@[simp]
theorem build_take (n : UInt64) :
    (q.take n).build = q.build.map fun s => { s with limit := some n } := by
  simp [build_eq]

@[simp]
theorem reconcileFrom_take (n : UInt64) (index : Nat) (rows : List Json) :
    (q.take n).reconcileFrom index rows = q.reconcileFrom index rows := by
  induction rows generalizing index with
  | nil => rfl
  | cons row rows ih =>
    rw [reconcileFrom, reconcileFrom, ih]
    rfl

/-- What an answer makes of a query does not depend on the limit. -/
@[simp]
theorem settles_take {n : UInt64} {answer : Outcome Response} {result : Outcome (List Record)} :
    (q.take n).Settles answer result ↔ q.Settles answer result := by
  -- neither the model nor the keys of the records know the limit
  have same : (q.take n).records = q.records := by
    funext rows
    rw [records, records, reconcileFrom_take]
  rw [settles_iff, settles_iff, same]

/-! ## Exchanges -/

variable {m : Type → Type} [Monad m] {executor : Executor m} {ctx : Option Context}

theorem getMany_of_build_eq_error {u : UnknownField} (h : q.build = .error u) :
    q.getMany executor ctx = pure (.error (.unknownField u)) := by
  rw [getMany, h]

theorem getOne_of_build_eq_error [LawfulMonad m] {u : UnknownField} (h : q.build = .error u) :
    q.getOne executor ctx = pure (.error (.unknownField u)) := by
  have limited : (q.take 1).build = .error u := by
    rw [build_take, h]
    rfl
  rw [getOne, getMany_of_build_eq_error limited, pure_bind]
  rfl

/-- A query that can be built sends one request. -/
theorem exists_run_getMany {s : Select} (h : q.build = .ok s) (config : SalesforceConfig)
    (answer : Request → Outcome Response) (ctx : Option Context) (sent : List Request) :
    ∃ r result, (q.getMany (config.executor (.recorded answer)) ctx).run sent =
      (result, sent ++ [r]) ∧ r.AsksFor s ctx ∧ q.Settles (answer r) result := by
  refine ⟨config.request s.soql ctx, _, ?_, ⟨rfl, rfl, rfl⟩, settles_iff.2 rfl⟩
  rw [getMany, h]
  rfl

/-- A query for one row sends the request that is limited to it. -/
theorem exists_run_getOne {s : Select} (h : q.build = .ok s) (config : SalesforceConfig)
    (answer : Request → Outcome Response) (ctx : Option Context) (sent : List Request) :
    ∃ r result, (q.getOne (config.executor (.recorded answer)) ctx).run sent =
      (result.map List.head?, sent ++ [r]) ∧ r.AsksFor { s with limit := some 1 } ctx ∧
        q.Settles (answer r) result := by
  have limited : (q.take 1).build = .ok { s with limit := some 1 } := by
    rw [build_take, h]
    rfl
  obtain ⟨r, result, run, asks, settles⟩ := exists_run_getMany limited config answer ctx sent
  refine ⟨r, result, ?_, asks, settles_take.1 settles⟩
  rw [getOne, StateT.run_bind, run]
  rfl

end Query

namespace Session

/-- A new session has an executor for a provider that is configured and no other. -/
theorem executor_new_eq_ok_iff {m : Type → Type} [Monad m] {t : Transport m} {config : Providers}
    {p : Provider} {e : Executor m} :
    (new t config).executor p = .ok e ↔
      ∃ c, config.salesforce = some c ∧ p = .salesforce ∧ e = c.executor t := by
  unfold new executor
  cases config.salesforce with
  | none => simp
  | some c =>
    cases p with
    | salesforce =>
      have found : List.lookup Provider.salesforce [(.salesforce, c.executor t)] =
        some (c.executor t) := rfl
      simp [found, eq_comm]
    | hubspot =>
      have missing : List.lookup Provider.hubspot [(.salesforce, c.executor t)] = none := rfl
      simp [missing]

/-- A run of a query is one request, or none where there is no executor or the query
cannot be built, and gives all records or one error. A run for one row asks for one
row and gives the first record of what the answer would give. -/
theorem getMany_getOne_recorded (config : Providers) (answer : Request → Outcome Response)
    (q : Query) (ctx : Option Context) (sent : List Request) :
    let session := Session.new (.recorded answer) config
    (∀ e, session.executor q.model.provider = .error e →
      (session.getMany q ctx).run sent = (.error e, sent) ∧
        (session.getOne q ctx).run sent = (.error e, sent)) ∧
      ∀ executor, session.executor q.model.provider = .ok executor →
        (∀ u, q.build = .error u →
          (session.getMany q ctx).run sent = (.error (.unknownField u), sent) ∧
            (session.getOne q ctx).run sent = (.error (.unknownField u), sent)) ∧
          ∀ s, q.build = .ok s →
            (∃ r result, (session.getMany q ctx).run sent = (result, sent ++ [r]) ∧
              r.AsksFor s ctx ∧ q.Settles (answer r) result) ∧
              ∃ r result, (session.getOne q ctx).run sent =
                (result.map List.head?, sent ++ [r]) ∧
                  r.AsksFor { s with limit := some 1 } ctx ∧ q.Settles (answer r) result := by
  intro session
  refine ⟨fun e h => ?_, fun executor h => ?_⟩
  · simp only [getMany, getOne, h]
    exact ⟨rfl, rfl⟩
  · -- a new session runs queries by the executor of its configuration only
    obtain ⟨c, _, _, rfl⟩ := executor_new_eq_ok_iff.1 h
    simp only [getMany, getOne, h]
    refine ⟨fun u refused => ?_, fun s built => ?_⟩
    · rw [Query.getMany_of_build_eq_error refused, Query.getOne_of_build_eq_error refused]
      exact ⟨rfl, rfl⟩
    · exact ⟨Query.exists_run_getMany built c answer ctx sent,
        Query.exists_run_getOne built c answer ctx sent⟩

/-- Ids and names of deals, both of which must be texts. -/
def deals : Query where
  model := { Model.deals with
    schema := ⟨[("id", ⟨.string, true, false⟩), ("name", ⟨.string, true, false⟩)]⟩ }
  selection := some (.ofKeys ["id", "name"])
  limit := some 25

/-- A page of two deals, the second of which has no name. -/
def page : Response where
  status := 200
  data := .object [("records", .array
    [.object [("Id", .string "1"), ("Name", .string "Acme")],
      .object [("Id", .string "2"), ("Name", .bool true)]])]

theorem getMany_getOne_recorded_invalid :
    let session := Session.new (.recorded fun _ => .ok page) { salesforce := some {} }
    ∃ e : Invalid, e.record = 1 ∧
      (∃ r, (session.getMany deals none).run [] = (.error (.validation e), [r]) ∧
        r.query = [("q", "SELECT Id, Name FROM Opportunity LIMIT 25")]) ∧
        ∃ r, (session.getOne deals none).run [] = (.error (.validation e), [r]) ∧
          r.query = [("q", "SELECT Id, Name FROM Opportunity LIMIT 1")] := by
  intro session
  have executor : session.executor deals.model.provider =
      .ok (({} : SalesforceConfig).executor (.recorded fun _ => .ok page)) := rfl
  obtain ⟨⟨r, result, many, asks, settles⟩, r₁, result₁, one, asks₁, settles₁⟩ :=
    ((getMany_getOne_recorded { salesforce := some {} } (fun _ => .ok page) deals none []).2 _
      executor).2 _ rfl
  cases Query.settles_iff.1 settles
  cases Query.settles_iff.1 settles₁
  exact ⟨_, rfl, ⟨r, many, asks.query⟩, r₁, one, asks₁.query⟩

end Session

end FilterQuery

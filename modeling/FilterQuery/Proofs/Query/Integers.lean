import FilterQuery.Proofs.Number.Roundest
import FilterQuery.Proofs.Query.Differing

/-!
# Integers in queries

What of an integer in a filter document stands in the query. Main statement: an integer of 64
bits with a sign stands there in decimal notation. A greater one is replaced by the roundest
number that is rounded to the same double, so that it stands there as it is just if it is that
number; and two documents that differ in one integer give the same query just if both integers
are too great for a sign and are rounded to the same double.
-/

namespace FilterQuery

namespace Double

theorem Span.Holds.of_between {s : Span} {a b n : Nat} (low : s.Holds a) (high : s.Holds b)
    (above : a ≤ n) (below : n ≤ b) : s.Holds n where
  low := Nat.le_trans low.low above
  high := Nat.le_trans below high.high
  inside opened := by
    have := low.inside opened
    have := low.low
    have := high.inside opened
    have := high.high
    omega

/-- A positive integer that has no signed word of 64 bits is rounded to a double beyond `2 ^ 54`. -/
theorem isCoarse_ofInt_of_not_fitsSigned {n : Int} (word : FitsWord n) (large : ¬FitsSigned n) :
    IsCoarse (ofInt n) := by
  obtain ⟨n, rfl⟩ := Int.eq_ofNat_of_zero_le (show 0 ≤ n by omega)
  exact isCoarse_ofInt (by omega) (by omega)

/-- The roundest number has no signed word either. -/
theorem IsRoundest.not_fitsSigned {n r : Int} (word : FitsWord n) (large : ¬FitsSigned n)
    (roundest : (ofInt n).IsRoundest r) : ¬FitsSigned r := by
  have coarse := isCoarse_ofInt_of_not_fitsSigned word large
  obtain ⟨n, rfl⟩ := Int.eq_ofNat_of_zero_le (show 0 ≤ n by omega)
  have dvd := roundest.dvd
  obtain ⟨r, rfl, low⟩ := coarse.ofInt_eq_iff.1 roundest.ofInt_eq
  obtain ⟨_, same, high⟩ := coarse.ofInt_eq_iff.1 rfl
  obtain rfl := Int.ofNat_inj.1 same
  intro fits
  -- the least number beyond that ends with three zeros is rounded to the same double
  have round : ofInt (9223372036854776000 : Nat) = ofInt n := by
    rcases Nat.lt_or_ge n 9223372036854776000 with less | more
    · have least : IsCoarse (ofInt (9223372036854776000 : Nat)) :=
        isCoarse_ofInt (by decide) (by decide)
      refine (least.ofInt_eq_iff.2 ⟨n, rfl, ?_, ?_, ?_⟩).symm
      · have : (ofInt (9223372036854776000 : Nat)).span.low = 9223372036854775296 := by
          decide +kernel
        omega
      · have : (ofInt (9223372036854776000 : Nat)).span.high = 9223372036854776832 := by
          decide +kernel
        omega
      · have : (ofInt (9223372036854776000 : Nat)).span.closed = true := by decide +kernel
        rw [this]
        nofun
    · exact coarse.ofInt_eq_iff.2 ⟨_, rfl, low.of_between high (by omega) more⟩
  have zeros := dvd _ round 3 (by decide)
  have below : ofInt (9223372036854775000 : Nat) = ofInt n :=
    coarse.ofInt_eq_iff.2 ⟨_, rfl, low.of_between high (by omega) (by omega)⟩
  have apart : ofInt (9223372036854775000 : Nat) ≠ ofInt (9223372036854776000 : Nat) := by
    decide +kernel
  exact apart (below.trans round.symm)

end Double

/-! ## The text of an integer -/

namespace Number

variable {m n : Int}

theorem literal_of_fitsSigned (word : FitsWord n) (fits : FitsSigned n) :
    (Number.int n word).literal = toString n := by
  have back : (Int64.ofInt n).toInt = n := Int64.toInt_ofInt_of_le fits.1 (by omega)
  rw [literal, Value.ofNumber, if_pos fits, Value.plain, back]

theorem exists_literal_eq (word : FitsWord n) (large : ¬FitsSigned n) :
    ∃ r : Nat, (Number.int n word).literal = toString (r : Int) ∧
      ∀ k, (Double.ofInt n).IsRoundest k ↔ k = r := by
  rw [literal, Value.ofNumber, if_neg large, Value.plain]
  exact Value.exists_write_eq (Double.isCoarse_ofInt_of_not_fitsSigned word large)

/-- An integer is written in decimal notation just if it has a signed word, or is the roundest
number that is rounded to its double. -/
theorem literal_eq_toString_iff (word : FitsWord n) : (Number.int n word).literal = toString n ↔
    FitsSigned n ∨ (Double.ofInt n).IsRoundest n := by
  by_cases fits : FitsSigned n
  · exact iff_of_true (literal_of_fitsSigned word fits) (.inl fits)
  · obtain ⟨r, text, roundest⟩ := exists_literal_eq word fits
    rw [text, roundest, or_iff_right fits]
    exact ⟨fun h => (toString_int_injective h).symm, fun h => congrArg toString h.symm⟩

/-- Two integers have the same text just if they are the same, or have no signed words and are
rounded to the same double. -/
theorem literal_eq_iff (hm : FitsWord m) (hn : FitsWord n) :
    (Number.int m hm).literal = (Number.int n hn).literal ↔
      m = n ∨ ¬FitsSigned m ∧ ¬FitsSigned n ∧ Double.ofInt m = Double.ofInt n := by
  -- a signed integer has no text of an unsigned one
  have apart {m n : Int} (hm : FitsWord m) (hn : FitsWord n) (fits : FitsSigned m)
      (large : ¬FitsSigned n) : (Number.int m hm).literal ≠ (Number.int n hn).literal := by
    obtain ⟨r, text, roundest⟩ := exists_literal_eq hn large
    rw [literal_of_fitsSigned hm fits, text]
    intro same
    rw [toString_int_injective same] at fits
    exact ((roundest r).2 rfl).not_fitsSigned hn large fits
  by_cases fits : FitsSigned m
  · by_cases fits' : FitsSigned n
    · rw [literal_of_fitsSigned hm fits, literal_of_fitsSigned hn fits']
      constructor
      · exact fun same => .inl (toString_int_injective same)
      · rintro (rfl | ⟨large, -⟩)
        · rfl
        · exact absurd fits large
    · refine iff_of_false (apart hm hn fits fits') ?_
      rintro (rfl | ⟨large, -⟩)
      · exact fits' fits
      · exact large fits
  · by_cases fits' : FitsSigned n
    · refine iff_of_false (apart hn hm fits' fits).symm ?_
      rintro (rfl | ⟨-, large, -⟩)
      · exact fits fits'
      · exact large fits'
    · obtain ⟨r, text, roundest⟩ := exists_literal_eq hm fits
      obtain ⟨r', text', roundest'⟩ := exists_literal_eq hn fits'
      rw [text, text']
      constructor
      · intro same
        have reads := ((roundest r).2 rfl).ofInt_eq
        rw [toString_int_injective same] at reads
        exact .inr ⟨fits, fits', reads.symm.trans ((roundest' r').2 rfl).ofInt_eq⟩
      · rintro (rfl | ⟨-, -, same⟩)
        · rw [← text, ← text']
        · rw [(roundest r').1 (same ▸ (roundest' r').2 rfl)]

end Number

/-- What stands in the query for the integers `m` and `n` of filter documents. An integer is
read as a literal, and its text, quoted nowhere, is its decimal notation just if it has a signed
word or is the roundest number that is rounded to its double; without a signed word it is the
text of that number, of which there is only one. Two integers have the same text just if they are
the same, or have no signed words and are rounded to the same double. Values that are the same but
for `m` and `n`, at any depth of arrays, are both literals or neither, and their texts have the
texts of `m` and `n` at one place and are else the same. Documents that are the same but for `m`
and `n` are both read or neither, and so are the texts of the queries that are built with them,
unless a policy leaves out what cannot be read or is not declared: under the strict policies the
queries are the same just if the texts of `m` and `n` are. -/
theorem Query.integers_in_soql (m n : Int) (hm : FitsWord m) (hn : FitsWord n) :
    (∃ a, Value.ofJson (.number (.int n hn)) = .ok a ∧ a.plain = (Number.int n hn).literal ∧
      a.written = (Number.int n hn).literal) ∧
    ((Number.int n hn).literal = toString n ↔ FitsSigned n ∨ (Double.ofInt n).IsRoundest n) ∧
    (¬FitsSigned n → ∃ r : Nat, (Number.int n hn).literal = toString (r : Int) ∧
      ∀ k, (Double.ofInt n).IsRoundest k ↔ k = r) ∧
    ((Number.int m hm).literal = (Number.int n hn).literal ↔
      m = n ∨ ¬FitsSigned m ∧ ¬FitsSigned n ∧ Double.ofInt m = Double.ofInt n) ∧
    (∀ v w, Json.LiteralsDiffer (.int m hm) (.int n hn) v w →
      ((∃ a, Value.ofJson v = .ok a) ↔ ∃ b, Value.ofJson w = .ok b) ∧
      ∀ a b, Value.ofJson v = .ok a → Value.ofJson w = .ok b →
        TextsDiffer (Number.int m hm).literal (Number.int n hn).literal a.plain b.plain ∧
        TextsDiffer (Number.int m hm).literal (Number.int n hn).literal a.written b.written) ∧
    ∀ v w, Json.FiltersDiffer (.int m hm) (.int n hn) v w → ∀ policy,
      ((∃ f, Filter.parse policy v = .ok f) ↔ ∃ g, Filter.parse policy w = .ok g) ∧
      ∀ f g, Filter.parse policy v = .ok f → Filter.parse policy w = .ok g →
        ∀ (q : Query) (s t : Select),
          (q.matching f).build = .ok s → (q.matching g).build = .ok t →
          ((policy = .ignore ∨ q.policy = .ignore) ∧ s.soql = t.soql ∨
            TextsDiffer (Number.int m hm).literal (Number.int n hn).literal s.soql t.soql) ∧
          (policy = .reject → q.policy = .reject → (s.soql = t.soql ↔
            m = n ∨ ¬FitsSigned m ∧ ¬FitsSigned n ∧ Double.ofInt m = Double.ofInt n)) := by
  refine ⟨⟨_, rfl, rfl, Value.written_ofNumber _⟩, Number.literal_eq_toString_iff hn,
    Number.exists_literal_eq hn, Number.literal_eq_iff hm hn, fun v w differ => ?_,
    fun v w differ policy => ?_⟩
  · have alike := Value.alike_ofJson differ
    refine ⟨alike.exists_ok_iff, fun a b ha hb => ?_⟩
    rw [ha, hb] at alike
    exact ⟨alike.plain, alike.written⟩
  · refine ⟨Filter.exists_parse_ok_iff policy differ, fun f g hf hg q s t hs ht => ?_⟩
    have texts := Query.soql_differ differ hf hg hs ht
    refine ⟨texts, ?_⟩
    rintro rfl strict
    rcases texts with ⟨lenient, -⟩ | texts
    · rw [strict] at lenient
      simp at lenient
    · rw [texts.eq_iff]
      exact Number.literal_eq_iff hm hn

/-- A document that compares a field with a number in a list of bounds and in an array. -/
def Json.bounded (x : Number) : Json :=
  .object [("$not", .object [("amount", .object
    [("$gte", .ofInt 5), ("$in", .array [.string "none", .array [.number x]])])])]

theorem Json.filtersDiffer_bounded (x y : Number) : FiltersDiffer x y (bounded x) (bounded y) :=
  .not [] [] (.operand [] [] (by decide) [("$gte", .ofInt 5)] [] (by decide)
    (.item [.string "none"] [] (.item [] [] .here)))

theorem Query.integers_in_soql_bounded :
    FitsWord 9223372036854775807 ∧ FitsWord 10000000000000000000 ∧
      (Double.ofInt 10000000000000000000).IsRoundest 10000000000000000000 ∧
      ∃ f g s t, Filter.parse .reject (.bounded (.int 9223372036854775807 (by decide))) = .ok f ∧
        Filter.parse .reject (.bounded (.int 10000000000000000000 (by decide))) = .ok g ∧
        ((Query.ofModel .deals).matching f).build = .ok s ∧
        ((Query.ofModel .deals).matching g).build = .ok t ∧
        TextsDiffer (Number.int 9223372036854775807 (by decide)).literal
          (Number.int 10000000000000000000 (by decide)).literal s.soql t.soql ∧
        s.soql ≠ t.soql := by
  have least : FitsWord 9223372036854775807 := by decide
  have greatest : FitsWord 10000000000000000000 := by decide
  obtain ⟨-, whole, -, -, -, documents⟩ := integers_in_soql _ _ least greatest
  obtain ⟨-, queries⟩ := documents _ _ (Json.filtersDiffer_bounded _ _) .reject
  have text : (Number.int 10000000000000000000 (by decide)).literal =
      toString (10000000000000000000 : Int) := by decide +kernel
  obtain ⟨texts, same⟩ := queries _ _ rfl rfl (Query.ofModel .deals) _ _ rfl rfl
  refine ⟨least, greatest, (whole.1 text).resolve_left (by decide), _, _, _, _, rfl, rfl, rfl, rfl,
    texts.resolve_left (by simp [ofModel]), fun equal => ?_⟩
  rcases (same rfl rfl).1 equal with other | ⟨large, -⟩
  · exact absurd other (by decide)
  · exact large (by decide)

/-- An integer without a signed word that is read as another number, and two documents that
differ in one integer and give the same query. -/
theorem Query.integers_in_soql_rounded :
    (∃ a, Value.ofJson (.number (.int 9223372036854775809 (by decide))) = .ok a ∧
      a.plain = "9223372036854776000" ∧ a.written = "9223372036854776000" ∧
      a.plain ≠ toString (9223372036854775809 : Int)) ∧
    ∃ f g s t, Filter.parse .reject (.bounded (.int 9223372036854775808 (by decide))) = .ok f ∧
      Filter.parse .reject (.bounded (.int 9223372036854775809 (by decide))) = .ok g ∧
      ((Query.ofModel .deals).matching f).build = .ok s ∧
      ((Query.ofModel .deals).matching g).build = .ok t ∧ s.soql = t.soql := by
  refine ⟨⟨_, rfl, ?_, ?_, ?_⟩, _, _, _, _, rfl, rfl, rfl, rfl, ?_⟩
  all_goals decide +kernel

end FilterQuery

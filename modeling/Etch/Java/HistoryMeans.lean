import Etch.Java.History
import Etch.Library.Mean
import Mathlib.Data.List.Infix

/-!
# The sizes that a `History` suggests

A `History` is used by a sequence of calls.  `Usage` says what was asked of
it: how many items were in use, in each of the periods between two tickles.
The size that the history suggests is the mean of the most items in use in
each of the last periods, as long as the sum of these numbers is an `int`.
-/

namespace Etch.Java

open Etch.Library.Mean

/-- A call of a method that changes a `History`. -/
inductive HistoryCall where
  | used (k : Int32)
  | alloc (k : Int32)
  | tickle
  | init

namespace History

/-- `used(k)` -/
def adjustUsedAndBump (history : History) (k : Int) :
    Except Thrown (Bool × History) := do
  let (within, next) ← history.adjustUsed k
  return (within, if within then next.bump next.used else next)

/-- A history after a call, which changes nothing if it throws. -/
def after (history : History) : HistoryCall → History
  | .used k =>
      match history.adjustUsedAndBump k.toInt with
      | .ok (_, next) => next
      | .error _ => history
  | .alloc k =>
      match history.adjustAlloc k.toInt with
      | .ok next => next
      | .error _ => history
  | .tickle => history.tickle
  | .init => history.init

/-- A history after a sequence of calls. -/
def afterAll (history : History) (calls : List HistoryCall) : History :=
  calls.foldl after history

end History

/-! ## What is asked of a history -/

/-- The number of items in use now, and the numbers that were in use in this
period and in each period before, the latest first. -/
structure Usage where
  used : Int
  period : List Int
  periods : List (List Int)

namespace Usage

/-- Nothing was used, for `len` periods. -/
def start (len : Int32) : Usage where
  used := 0
  period := [0]
  periods := List.replicate len.toInt.toNat [0]

/-- The number of items in use can change by `k`. -/
def Admits (limit : Int32) (usage : Usage) (k : Int32) : Prop :=
  k ≠ 0 ∧ 0 ≤ usage.used + k.toInt ∧ usage.used + k.toInt ≤ limit.toInt

instance (limit : Int32) (usage : Usage) (k : Int32) :
    Decidable (usage.Admits limit k) :=
  inferInstanceAs (Decidable (_ ∧ _ ∧ _))

/-- The number of items in use changes if it remains in its range, a period
ends with a tickle, and `init` forgets all periods. -/
def after (limit len : Int32) (usage : Usage) : HistoryCall → Usage
  | .used k =>
      if usage.Admits limit k then
        { usage with
          used := usage.used + k.toInt
          period := (usage.used + k.toInt) :: usage.period }
      else
        usage
  | .alloc _ => usage
  | .tickle =>
      { usage with
        period := [usage.used]
        periods := usage.period :: usage.periods }
  | .init =>
      { usage with
        period := [usage.used]
        periods := List.replicate len.toInt.toNat [usage.used] }

/-- What was asked of a history by a sequence of calls. -/
def afterAll (limit len : Int32) (calls : List HistoryCall) : Usage :=
  calls.foldl (Usage.after limit len) (start len)

/-- The most items in use in a period, at least the minimum. -/
def highWater (minimum : Int32) (period : List Int) : Int :=
  period.foldr max minimum.toInt

theorem highWater_mem {minimum limit : Int32} {period : List Int}
    (order : minimum.toInt ≤ limit.toInt)
    (levels : ∀ level ∈ period, level ≤ limit.toInt) :
    minimum.toInt ≤ highWater minimum period ∧
      highWater minimum period ≤ limit.toInt := by
  induction period with
  | nil => exact ⟨le_refl _, order⟩
  | cons level period ih =>
      obtain ⟨lower, upper⟩ :=
        ih fun other member => levels other (List.mem_cons_of_mem _ member)
      exact ⟨le_max_of_le_right lower,
        max_le (levels level List.mem_cons_self) upper⟩

/-- The high-water marks of the last `len` periods. -/
def marks (minimum len : Int32) (usage : Usage) : List Int :=
  (usage.periods.take len.toInt.toNat).map (highWater minimum)

/-- A number of items that was in use. -/
def Level (usage : Usage) (level : Int) : Prop :=
  level = usage.used ∨ level ∈ usage.period ∨
    ∃ period ∈ usage.periods, level ∈ period

end Usage

/-- The size that a history suggests is in its range, and it is the mean of
the last high-water marks, clamped to that range, if these are any. -/
structure SuggestsMean (minimum limit len : Int32) (history : History)
    (usage : Usage) : Prop where
  range : minimum.toInt ≤ history.suggested ∧ history.suggested ≤ limit.toInt
  equal : 0 < len.toInt → history.suggested =
    max minimum.toInt
      (min limit.toInt (mean (usage.marks minimum len)))

/-- The sum of the high-water marks that a tickle averages is an `int`. -/
def History.SumFits (history : History) : Prop :=
  history.history ≠ [] →
    (history.highwatermark :: history.history.dropLast).sum < 2 ^ 31

instance (history : History) : Decidable history.SumFits :=
  inferInstanceAs (Decidable (_ → _))

/-! ## A history records what is asked of it -/

/-- The state of a history that was used in some way. -/
structure Records (minimum limit len : Int32) (history : History)
    (usage : Usage) : Prop where
  order : 0 ≤ minimum.toInt ∧ minimum.toInt ≤ limit.toInt
  least : history.min = minimum.toInt
  most : history.limit = limit.toInt
  used : history.used = usage.used
  levels : ∀ level, usage.Level level → 0 ≤ level ∧ level ≤ limit.toInt
  recorded : history.history = usage.marks minimum len
  full : len.toInt.toNat ≤ usage.periods.length
  current : 0 < len.toInt →
    history.highwatermark = Usage.highWater minimum usage.period

namespace Records

variable {minimum limit len : Int32} {history : History} {usage : Usage}

/-- Every high-water mark is in the range. -/
theorem marks_mem (records : Records minimum limit len history usage)
    {mark : Int} (member : mark ∈ usage.marks minimum len) :
    minimum.toInt ≤ mark ∧ mark ≤ limit.toInt := by
  obtain ⟨period, taken, rfl⟩ := List.mem_map.mp member
  refine Usage.highWater_mem records.order.2 fun level inside => ?_
  exact (records.levels level
    (Or.inr (Or.inr ⟨period, List.mem_of_mem_take taken, inside⟩))).2

theorem length_marks (records : Records minimum limit len history usage) :
    (usage.marks minimum len).length = len.toInt.toNat := by
  rw [Usage.marks, List.length_map, List.length_take]
  exact Nat.min_eq_left records.full

theorem length_history (records : Records minimum limit len history usage) :
    history.history.length = len.toInt.toNat := by
  rw [records.recorded, records.length_marks]

/-- The high-water mark that `init` starts with. -/
theorem highWater_single (least : history.min = minimum.toInt) :
    max history.min history.used =
      Usage.highWater minimum [history.used] := by
  rw [least, max_comm]
  rfl

/-- A history after `init`, whose array had `len` elements before. -/
theorem of_init (order : 0 ≤ minimum.toInt ∧ minimum.toInt ≤ limit.toInt)
    (least : history.min = minimum.toInt) (most : history.limit = limit.toInt)
    (used : 0 ≤ history.used ∧ history.used ≤ limit.toInt)
    (length : history.history.length = len.toInt.toNat) :
    Records minimum limit len history.init
      ⟨history.used, [history.used],
        List.replicate len.toInt.toNat [history.used]⟩ where
  order := order
  least := least
  most := most
  used := rfl
  levels := by
    rintro level (rfl | member | ⟨period, member, inside⟩)
    · exact used
    · obtain rfl := List.mem_singleton.mp member
      exact used
    · obtain rfl := List.eq_of_mem_replicate member
      obtain rfl := List.mem_singleton.mp inside
      exact used
  recorded := by
    rw [History.init, Usage.marks, List.take_replicate, Nat.min_self,
      List.map_replicate, ← length, ← List.map_const',
      ← highWater_single least]
  full := by rw [List.length_replicate]
  current := fun _ => highWater_single least

theorem init (records : Records minimum limit len history usage) :
    Records minimum limit len history.init
      (usage.after limit len .init) := by
  have result := of_init records.order records.least records.most
    (by
      rw [records.used]
      exact records.levels usage.used (Or.inl rfl))
    records.length_history
  rwa [records.used] at result

theorem of_new {history : History}
    (built : History.new minimum.toInt limit.toInt len.toInt = .ok history) :
    Records minimum limit len history (Usage.start len) := by
  unfold History.new at built
  split_ifs at built with negative below none
  obtain rfl := Except.ok.inj built
  have order : 0 ≤ minimum.toInt ∧ minimum.toInt ≤ limit.toInt := by omega
  exact of_init order rfl rfl ⟨le_refl _, order.1.trans order.2⟩
    List.length_replicate

theorem alloc (records : Records minimum limit len history usage)
    (k : Int32) :
    Records minimum limit len (history.after (.alloc k))
      (usage.after limit len (.alloc k)) := by
  rw [History.after, Usage.after]
  cases result : history.adjustAlloc k.toInt with
  | error thrown => exact records
  | ok next =>
      unfold History.adjustAlloc at result
      dsimp only at result
      split_ifs at result
      obtain rfl := Except.ok.inj result
      exact { records with }

/-- The array moves by one mark. -/
theorem tickle (records : Records minimum limit len history usage) :
    Records minimum limit len history.tickle
      (usage.after limit len .tickle) := by
  have levels : ∀ level, (usage.after limit len .tickle).Level level →
      usage.Level level := by
    rintro level (rfl | member | ⟨period, member, inside⟩)
    · exact Or.inl rfl
    · exact Or.inl (List.mem_singleton.mp member)
    · rcases List.mem_cons.mp member with rfl | earlier
      · exact Or.inr (Or.inl inside)
      · exact Or.inr (Or.inr ⟨period, earlier, inside⟩)
  have length := records.length_history
  rw [History.tickle]
  split_ifs with none
  · rw [none] at length
    exact
      { records with
        levels := fun level had => records.levels level (levels level had)
        recorded := by
          rw [records.recorded, Usage.marks, Usage.marks, ← length,
            List.take_zero, List.take_zero]
        full := by omega
        current := by omega }
  · obtain ⟨count, size⟩ := Nat.exists_eq_succ_of_ne_zero none
    rw [size] at length
    exact
      { order := records.order
        least := records.least
        most := records.most
        used := records.used
        levels := fun level had => records.levels level (levels level had)
        recorded := by
          change history.highwatermark :: history.history.dropLast = _
          rw [records.current (by omega), records.recorded,
            List.dropLast_eq_take, records.length_marks, Usage.marks,
            Usage.marks, ← length, ← List.map_take, List.take_take]
          rw [Nat.min_eq_left (by omega)]
          rfl
        full := by
          have full := records.full
          change _ ≤ (usage.period :: usage.periods).length
          rw [List.length_cons]
          omega
        current := by
          intro _
          change max history.min history.used = max usage.used minimum.toInt
          rw [records.least, records.used, max_comm] }

theorem bump_eq (history : History) (value : Int) :
    history.bump value =
      { history with highwatermark := max value history.highwatermark } := by
  unfold History.bump
  split_ifs with more
  · rw [max_eq_left more.le]
  · rw [max_eq_right (not_lt.mp more)]

/-- A change of the number of items is made if it remains in its range, also
where the new number is too large for an `int`. -/
theorem adjustUsed (records : Records minimum limit len history usage)
    (k : Int32) :
    if usage.Admits limit k then
      history.adjustUsed k.toInt =
        .ok (true, { history with used := usage.used + k.toInt })
    else
      ∀ next, history.adjustUsed k.toInt ≠ .ok (true, next) ∧
        (history.adjustUsed k.toInt = .ok (false, next) → next = history) := by
  obtain ⟨lower, upper⟩ := records.levels usage.used (Or.inl rfl)
  have most := limit.toInt_lt
  have least := k.le_toInt
  have largest := k.toInt_lt
  have zero : k.toInt = 0 ↔ k = 0 := by
    rw [← Int32.toInt_zero, Int32.toInt_inj]
  rw [History.adjustUsed, records.used, records.most]
  simp only [zero]
  by_cases large : usage.used + k.toInt < 2 ^ 31
  · rw [History.intAdd_eq (by omega) large]
    by_cases admits : usage.Admits limit k
    · obtain ⟨nonzero, positive, within⟩ := admits
      rw [if_pos ⟨nonzero, positive, within⟩, if_neg nonzero,
        if_neg (not_lt.mpr within), if_neg (not_lt.mpr positive)]
    · rw [if_neg admits]
      intro next
      split_ifs with none exceeds negative
      · exact ⟨by rintro ⟨⟩, by rintro ⟨⟩⟩
      · exact ⟨by rintro ⟨⟩, fun equal =>
          (Prod.mk.inj (Except.ok.inj equal)).2.symm⟩
      · exact ⟨by rintro ⟨⟩, by rintro ⟨⟩⟩
      · exact absurd ⟨none, not_lt.mp negative, not_lt.mp exceeds⟩ admits
  · have negative : intAdd usage.used k.toInt < 0 :=
      History.intAdd_neg (by omega) (by omega)
    have refuses : ¬ usage.Admits limit k := by
      intro admits
      have within := admits.2.2
      omega
    rw [if_neg refuses, if_neg (by omega : ¬ _ > limit.toInt),
      if_pos negative]
    intro next
    split_ifs <;> exact ⟨by rintro ⟨⟩, by rintro ⟨⟩⟩

theorem after_used (records : Records minimum limit len history usage)
    (k : Int32) :
    history.after (.used k) =
      if usage.Admits limit k then
        History.bump { history with used := usage.used + k.toInt }
          (usage.used + k.toInt)
      else history := by
  have result := records.adjustUsed k
  rw [History.after, History.adjustUsedAndBump]
  split_ifs at result ⊢
  · rw [result]
    rfl
  · cases outcome : history.adjustUsed k.toInt with
    | error thrown => rfl
    | ok answer =>
        obtain ⟨within, next⟩ := answer
        cases within with
        | true => exact absurd outcome (result next).1
        | false => exact (result next).2 outcome

theorem useItems (records : Records minimum limit len history usage)
    (k : Int32) :
    Records minimum limit len (history.after (.used k))
      (usage.after limit len (.used k)) := by
  rw [records.after_used, Usage.after]
  split_ifs with admits
  · rw [bump_eq]
    exact
      { records with
        used := rfl
        levels := by
          rintro level (rfl | member | earlier)
          · exact admits.2
          · rcases List.mem_cons.mp member with rfl | before
            · exact admits.2
            · exact records.levels level (Or.inr (Or.inl before))
          · exact records.levels level (Or.inr (Or.inr earlier))
        current := fun positive =>
          congrArg (max (usage.used + k.toInt)) (records.current positive) }
  · exact records

/-- Every call keeps a history and its usage together. -/
theorem after (records : Records minimum limit len history usage)
    (call : HistoryCall) :
    Records minimum limit len (history.after call)
      (usage.after limit len call) := by
  cases call with
  | used k => exact records.useItems k
  | alloc k => exact records.alloc k
  | tickle => exact records.tickle
  | init => exact records.init

end Records

section Suggestions

variable {minimum limit len : Int32} {history : History} {usage : Usage}

theorem clamp_mean (records : Records minimum limit len history usage)
    (positive : 0 < len.toInt) :
    (minimum.toInt ≤ mean (usage.marks minimum len) ∧
        mean (usage.marks minimum len) ≤ limit.toInt) ∧
      max minimum.toInt (min limit.toInt (mean (usage.marks minimum len))) =
        mean (usage.marks minimum len) := by
  have nonempty : usage.marks minimum len ≠ [] := by
    intro empty
    have length := records.length_marks
    rw [empty, List.length_nil] at length
    omega
  have range := mean_mem nonempty fun mark member => records.marks_mem member
  refine ⟨range, ?_⟩
  rw [min_eq_right range.2, max_eq_right range.1]

/-- A history suggests its high-water mark after `init`. -/
theorem suggestsMean_init
    (records : Records minimum limit len history.init
      ⟨history.used, [history.used],
        List.replicate len.toInt.toNat [history.used]⟩) :
    SuggestsMean minimum limit len history.init
      ⟨history.used, [history.used],
        List.replicate len.toInt.toNat [history.used]⟩ := by
  have levels : ∀ level ∈ [history.used], level ≤ limit.toInt :=
    fun level member => (records.levels level (Or.inr (Or.inl member))).2
  have suggested : history.init.suggested =
      Usage.highWater minimum [history.used] :=
    Records.highWater_single records.least
  constructor
  · rw [suggested]
    exact Usage.highWater_mem records.order.2 levels
  · intro positive
    have each : ∀ mark ∈ Usage.marks minimum len
        ⟨history.used, [history.used],
          List.replicate len.toInt.toNat [history.used]⟩,
        mark = Usage.highWater minimum [history.used] := by
      intro mark member
      obtain ⟨period, taken, rfl⟩ := List.mem_map.mp member
      rw [List.eq_of_mem_replicate (List.mem_of_mem_take taken)]
    have nonempty := List.length_pos_iff.mp (by
      rw [records.length_marks]
      omega)
    have equal := mean_mem nonempty fun mark member =>
      ⟨(each mark member).ge, (each mark member).le⟩
    rw [(clamp_mean records positive).2, suggested]
    exact le_antisymm equal.1 equal.2

theorem recalc_eq_iff {hstry : List Int} (nonempty : hstry ≠ [])
    (few : hstry.length < 2 ^ 31) (each : ∀ mark ∈ hstry, 0 ≤ mark) :
    History.recalc hstry = mean hstry ↔ hstry.sum < 2 ^ 31 := by
  have total : hstry.foldl intAdd 0 = hstry.sum.bmod (2 ^ 32) := by
    have result := foldl_bmod (2 ^ 32) hstry 0
    rwa [zero_add] at result
  rw [History.recalc, total, mean,
    tdiv_bmod_eq_iff (List.sum_nonneg each)
      (List.length_pos_iff.mpr nonempty) (by omega)]
  omega

/-- A tickle keeps the suggestion right if and only if the sum fits. -/
theorem suggestsMean_tickle
    (records : Records minimum limit len history usage)
    (suggests : SuggestsMean minimum limit len history usage) :
    SuggestsMean minimum limit len history.tickle
        (usage.after limit len .tickle) ↔ history.SumFits := by
  have next := records.tickle
  have length := records.length_history
  by_cases none : history.history = []
  · have zero : ¬ 0 < len.toInt := by
      rw [none, List.length_nil] at length
      omega
    refine iff_of_true ⟨?_, fun positive => absurd positive zero⟩
      fun some => absurd none some
    rw [History.tickle, none, if_pos List.length_nil]
    exact suggests.range
  · have positive : 0 < len.toInt := by
      have some := List.length_pos_iff.mpr none
      omega
    have tickled : history.tickle.history =
        history.highwatermark :: history.history.dropLast ∧
        history.tickle.suggested = History.recalc history.tickle.history := by
      rw [History.tickle, if_neg (mt List.length_eq_zero_iff.mp none)]
      exact ⟨rfl, rfl⟩
    have recorded := next.recorded
    have size := next.length_history
    have exact : History.recalc history.tickle.history =
        mean history.tickle.history ↔
        history.tickle.history.sum < 2 ^ 31 := by
      refine recalc_eq_iff (List.length_pos_iff.mp (by omega)) ?_ ?_
      · have most := len.toInt_lt
        omega
      · rw [recorded]
        exact fun mark member =>
          records.order.1.trans (next.marks_mem member).1
    obtain ⟨range, clamped⟩ := clamp_mean next positive
    rw [tickled.1] at exact
    rw [History.SumFits, imp_iff_right none, ← exact, ← tickled.1]
    constructor
    · intro kept
      rw [← tickled.2, kept.equal positive, clamped, recorded]
    · intro equal
      rw [← tickled.2, recorded] at equal
      exact ⟨by rwa [equal], fun _ => by rw [equal, clamped]⟩

/-- A change of the numbers of items leaves the suggestion as it is. -/
theorem suggestsMean_used
    (records : Records minimum limit len history usage)
    (suggests : SuggestsMean minimum limit len history usage) (k : Int32) :
    SuggestsMean minimum limit len (history.after (.used k))
      (usage.after limit len (.used k)) := by
  rw [records.after_used, Usage.after]
  split_ifs
  · rw [Records.bump_eq]
    exact ⟨suggests.range, suggests.equal⟩
  · exact suggests

theorem suggestsMean_alloc
    (suggests : SuggestsMean minimum limit len history usage) (k : Int32) :
    SuggestsMean minimum limit len (history.after (.alloc k))
      (usage.after limit len (.alloc k)) := by
  rw [History.after, Usage.after]
  cases result : history.adjustAlloc k.toInt with
  | error thrown => exact suggests
  | ok next =>
      unfold History.adjustAlloc at result
      dsimp only at result
      split_ifs at result
      obtain rfl := Except.ok.inj result
      exact ⟨suggests.range, suggests.equal⟩

/-- Every call keeps the suggestion right, a tickle if its sum fits. -/
theorem suggestsMean_after
    (records : Records minimum limit len history usage)
    (suggests : SuggestsMean minimum limit len history usage)
    {call : HistoryCall} (fits : call = .tickle → history.SumFits) :
    SuggestsMean minimum limit len (history.after call)
      (usage.after limit len call) := by
  cases call with
  | used k => exact suggestsMean_used records suggests k
  | alloc k => exact suggestsMean_alloc suggests k
  | tickle => exact (suggestsMean_tickle records suggests).mpr (fits rfl)
  | init =>
      have next := records.init
      rw [Usage.after, ← records.used] at next ⊢
      exact suggestsMean_init next

end Suggestions

section Runs

variable {minimum limit len : Int32} {history : History}

theorem records_afterAll
    (built : History.new minimum.toInt limit.toInt len.toInt = .ok history)
    (calls : List HistoryCall) :
    Records minimum limit len (history.afterAll calls)
      (Usage.afterAll limit len calls) := by
  induction calls using List.reverseRecOn with
  | nil => exact Records.of_new built
  | append_singleton calls call ih =>
      rw [History.afterAll, Usage.afterAll, List.foldl_concat,
        List.foldl_concat]
      exact ih.after call

theorem suggestsMean_new
    (built : History.new minimum.toInt limit.toInt len.toInt = .ok history) :
    SuggestsMean minimum limit len history (Usage.start len) := by
  have records := Records.of_new built
  unfold History.new at built
  split_ifs at built
  obtain rfl := Except.ok.inj built
  exact suggestsMean_init records

/-- A history always suggests the mean of the last high-water marks if and
only if the sum of the marks is an `int` at each tickle. -/
theorem suggestsMean_afterAll_iff
    (built : History.new minimum.toInt limit.toInt len.toInt = .ok history)
    (calls : List HistoryCall) :
    (∀ before, before <+: calls →
        SuggestsMean minimum limit len (history.afterAll before)
          (Usage.afterAll limit len before)) ↔
      ∀ before, before ++ [.tickle] <+: calls →
        (history.afterAll before).SumFits := by
  have next (before : List HistoryCall) (call : HistoryCall) :
      history.afterAll (before ++ [call]) =
          (history.afterAll before).after call ∧
        Usage.afterAll limit len (before ++ [call]) =
          (Usage.afterAll limit len before).after limit len call :=
    ⟨List.foldl_concat .., List.foldl_concat ..⟩
  constructor
  · intro suggests before inside
    have after := suggests _ inside
    rw [(next before .tickle).1, (next before .tickle).2] at after
    exact (suggestsMean_tickle (records_afterAll built before)
      (suggests before ((List.prefix_append ..).trans inside))).mp after
  · intro fits before inside
    induction before using List.reverseRecOn with
    | nil => exact suggestsMean_new built
    | append_singleton before call ih =>
        rw [(next before call).1, (next before call).2]
        refine suggestsMean_after (records_afterAll built before)
          (ih ((List.prefix_append ..).trans inside)) ?_
        rintro rfl
        exact fits before inside

end Runs

/-- The tickles of a history with two marks of at most ten average them. -/
theorem suggestsMean_ten :
    ∃ history, History.new 0 10 2 = .ok history ∧
      ∀ before, before <+: [.used 9, .tickle, .used (-5), .tickle] →
        SuggestsMean 0 10 2 (history.afterAll before)
          (Usage.afterAll 10 2 before) := by
  refine ⟨_, rfl, (suggestsMean_afterAll_iff rfl _).mpr ?_⟩
  intro before inside
  have fits : ∀ before ∈
      List.inits [.used 9, .tickle, .used (-5), .tickle],
      (History.afterAll ⟨0, 10, [0, 0], 0, 0, 0, 0⟩ before).SumFits := by
    decide
  exact fits before
    ((List.mem_inits _ _).mpr ((List.prefix_append ..).trans inside))

/-- Two marks of `2 ^ 30` have a sum that is no `int`. -/
theorem suggested_negative :
    ∃ history, History.new 0 (2 ^ 30) 2 = .ok history ∧
      (history.afterAll [.used (2 ^ 30), .tickle, .tickle]).suggested =
        -2 ^ 30 ∧
      ¬ SuggestsMean 0 (2 ^ 30) 2
        (history.afterAll [.used (2 ^ 30), .tickle, .tickle])
        (Usage.afterAll (2 ^ 30) 2 [.used (2 ^ 30), .tickle, .tickle]) := by
  refine ⟨_, rfl, by decide, fun suggests => ?_⟩
  exact absurd suggests.range.1 (by decide)

end Etch.Java

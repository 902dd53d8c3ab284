import Krc721.Paging.Walk
import Mathlib.Data.List.Chain
import Mathlib.Data.List.Nodup
import Mathlib.Data.List.Perm.Basic

/-! Walks whose offsets lead anywhere in a listing. A page is a window of the rows, and the offset
of the row behind it may lead to any window; such a walk shows every row once if and only if the
offsets lead through all pages. -/

set_option autoImplicit false

namespace Paging

variable {Row Item Offset Error : Type}

def window (rows : List Row) (limit start : ℕ) : List Row := (rows.drop start).take limit

/-- Where the windows of a walk start. A walk ends with the window that reaches the last row. -/
inductive Visits (count limit : ℕ) (jump : ℕ → ℕ) : ℕ → List ℕ → Prop where
  | last {start : ℕ} (reached : count ≤ start + limit) : Visits count limit jump start [start]
  | next {start : ℕ} {starts : List ℕ} (before : start + limit < count)
      (later : Visits count limit jump (jump (start + limit)) starts) :
      Visits count limit jump start (start :: starts)

/-- The number of pages of a listing; an empty listing has one. -/
def pageCount (count limit : ℕ) : ℕ := max 1 ((count + limit - 1) / limit)

/-- The pages can be put in an order that begins with the first and ends with the last one, and in
which the offset behind each page leads to the page that comes next in the order. -/
def Leads (count limit : ℕ) (jump : ℕ → ℕ) : Prop :=
  count ≤ pageCount count limit * limit ∧ ∃ order : List ℕ,
    (0 :: order).Perm (List.range (pageCount count limit)) ∧
    (0 :: order).IsChain (fun page next => jump ((page + 1) * limit) = next * limit) ∧
    (0 :: order).getLast? = some (pageCount count limit - 1)

section Windows

variable {rows : List Row} {count limit : ℕ} {jump : ℕ → ℕ}

theorem mem_window {row : Row} {start : ℕ} :
    row ∈ window rows limit start ↔
      ∃ index, start ≤ index ∧ index < start + limit ∧ rows[index]? = some row := by
  simp only [window, List.mem_iff_getElem?, List.getElem?_take, List.getElem?_drop]
  constructor
  · rintro ⟨index, found⟩
    split at found
    · rename_i inside
      exact ⟨start + index, Nat.le_add_right _ _, Nat.add_lt_add_left inside _, found⟩
    · cases found
  · rintro ⟨index, above, below, isRow⟩
    refine ⟨index - start, ?_⟩
    rwa [if_pos (by omega), Nat.add_sub_cancel' above]

/-- The windows of consecutive pages are the rows in front of the next page. -/
theorem flatMap_window_range (pages : ℕ) :
    ((List.range pages).map (· * limit)).flatMap (window rows limit) =
      rows.take (pages * limit) := by
  induction pages with
  | zero => simp
  | succ pages ih =>
      rw [List.range_succ, List.map_append, List.flatMap_append, ih, List.map_singleton,
        List.flatMap_singleton, window, Nat.succ_mul, List.take_add]

theorem pageCount_pos : 0 < pageCount count limit :=
  Nat.lt_of_lt_of_le Nat.one_pos (le_max_left _ _)

/-- All pages but the last end before the last row. -/
theorem page_lt {page : ℕ} (inside : page + 1 < pageCount count limit) :
    (page + 1) * limit < count := by
  have within : page + 1 + 1 ≤ (count + limit - 1) / limit := by
    unfold pageCount at inside
    omega
  have positive : 0 < limit := by
    refine Nat.pos_of_ne_zero fun zero => ?_
    rw [zero, Nat.div_zero] at within
    omega
  rw [Nat.le_div_iff_mul_le positive, Nat.succ_mul] at within
  omega

theorem le_pageCount_mul (positive : 0 < limit) : count ≤ pageCount count limit * limit := by
  have less := Nat.lt_div_mul_add positive (a := count + limit - 1)
  have le := Nat.mul_le_mul_right limit (le_max_right 1 ((count + limit - 1) / limit))
  rw [pageCount]
  omega

/-! A walk that shows every row once visits the pages. -/

/-- Every window but the last of a walk ends before the last row. -/
theorem Visits.reached {start : ℕ} {starts : List ℕ}
    (visits : Visits count limit jump start starts) :
    ∃ last, starts.getLast? = some last ∧ count ≤ last + limit ∧
      ∀ other ∈ starts, count ≤ other + limit → other = last := by
  induction visits with
  | @last start reached =>
      exact ⟨start, rfl, reached, fun other member _ => List.mem_singleton.1 member⟩
  | @next start starts before later ih =>
      obtain ⟨last, isLast, reached, only⟩ := ih
      refine ⟨last, ?_, reached, ?_⟩
      · rw [List.getLast?_cons, isLast, Option.getD_some]
      · intro other member le
        rcases List.mem_cons.1 member with rfl | inRest
        · omega
        · exact only other inRest le

theorem Visits.head {start : ℕ} {starts : List ℕ} (visits : Visits count limit jump start starts) :
    starts.head? = some start := by
  cases visits <;> rfl

theorem Visits.isChain {start : ℕ} {starts : List ℕ}
    (visits : Visits count limit jump start starts) :
    starts.IsChain fun start next => jump (start + limit) = next := by
  induction visits with
  | last => exact List.isChain_singleton _
  | next before later ih =>
      refine List.isChain_cons.2 ⟨fun next isNext => ?_, ih⟩
      rw [later.head] at isNext
      exact Option.some.inj isNext

theorem lt_pageCount (positive : 0 < limit) {page : ℕ} (inside : page * limit < count) :
    page < pageCount count limit := by
  have le := @le_pageCount_mul count limit positive
  by_contra beyond
  have := Nat.mul_le_mul_right limit (Nat.le_of_not_lt beyond)
  omega

/-- Two windows of a walk that shows every row once have no row in common. -/
theorem window_unique {starts : List ℕ} (distinct : rows.Nodup)
    (shown : (starts.flatMap (window rows limit)).Perm rows) {start other index : ℕ}
    (member : start ∈ starts) (member' : other ∈ starts) (inside : index < rows.length)
    (above : start ≤ index) (below : index < start + limit) (above' : other ≤ index)
    (below' : index < other + limit) : start = other := by
  have apart := (List.nodup_flatMap.1 (shown.nodup_iff.2 distinct)).2
  have symmetric : Std.Symm (Function.onFun List.Disjoint (window rows limit)) :=
    ⟨fun _ _ disjoint _ left right => disjoint right left⟩
  by_contra different
  have disjoint := List.Pairwise.forall apart member member' different
  have isRow := List.getElem?_eq_getElem inside
  exact disjoint (mem_window.2 ⟨index, above, below, isRow⟩)
    (mem_window.2 ⟨index, above', below', isRow⟩)

/-- Every row is in a window of a walk that shows every row once. -/
theorem exists_window {starts : List ℕ} (distinct : rows.Nodup)
    (shown : (starts.flatMap (window rows limit)).Perm rows) {index : ℕ}
    (inside : index < rows.length) :
    ∃ start ∈ starts, start ≤ index ∧ index < start + limit := by
  obtain ⟨start, member, isShown⟩ :=
    List.mem_flatMap.1 (shown.mem_iff.2 (List.getElem_mem inside))
  obtain ⟨index', above, below, isRow⟩ := mem_window.1 isShown
  obtain ⟨inside', same⟩ := List.getElem?_eq_some_iff.1 isRow
  have same' := (distinct.getElem_inj_iff).1 same
  subst same'
  exact ⟨start, member, above, below⟩

/-- The windows of a walk that shows every row once are the pages. -/
theorem Visits.mem_iff {starts : List ℕ} (visits : Visits rows.length limit jump 0 starts)
    (positive : 0 < limit) (distinct : rows.Nodup)
    (shown : (starts.flatMap (window rows limit)).Perm rows) {start : ℕ} :
    start ∈ starts ↔ ∃ page < pageCount rows.length limit, start = page * limit := by
  have pages : ∀ page, page < pageCount rows.length limit → page * limit ∈ starts := by
    intro page
    induction page with
    | zero =>
        intro _
        rw [Nat.zero_mul]
        exact List.mem_of_head? visits.head
    | succ page ih =>
        intro inside
        have before := ih (Nat.lt_of_succ_lt inside)
        have less := page_lt inside
        obtain ⟨found, member, above, below⟩ := exists_window distinct shown less
        rw [Nat.succ_mul] at above below less ⊢
        by_cases same : found = page * limit + limit
        · rwa [← same]
        · have overlap := @window_unique _ rows limit starts distinct shown _ _ found before member
            (by omega) (by omega) (by omega) le_rfl (by omega)
          omega
  obtain ⟨last, _, _, only⟩ := visits.reached
  have lastPage := pages (pageCount rows.length limit - 1) (Nat.sub_lt pageCount_pos Nat.one_pos)
  have whole : rows.length ≤ (pageCount rows.length limit - 1) * limit + limit := by
    rw [← Nat.succ_mul, Nat.succ_eq_add_one, Nat.sub_add_cancel pageCount_pos]
    exact le_pageCount_mul positive
  constructor
  · intro member
    by_cases ends : rows.length ≤ start + limit
    · refine ⟨pageCount rows.length limit - 1, Nat.sub_lt pageCount_pos Nat.one_pos, ?_⟩
      rw [only start member ends, only _ lastPage whole]
    · have below := Nat.lt_div_mul_add positive (a := start)
      have above := Nat.div_mul_le_self start limit
      have inside := @lt_pageCount rows.length limit positive (start / limit) (by omega)
      exact ⟨start / limit, inside, window_unique distinct shown member (pages _ inside)
        (by omega) le_rfl (by omega) above below⟩
  · rintro ⟨page, inside, rfl⟩
    exact pages page inside

/-- No window of a walk that shows every row once is visited twice. -/
theorem Visits.nodup {starts : List ℕ} (visits : Visits rows.length limit jump 0 starts)
    (positive : 0 < limit) (distinct : rows.Nodup)
    (shown : (starts.flatMap (window rows limit)).Perm rows) : starts.Nodup := by
  by_cases single : pageCount rows.length limit = 1
  · have whole := @le_pageCount_mul rows.length limit positive
    rw [single, Nat.one_mul] at whole
    cases visits with
    | last reached => exact List.nodup_singleton 0
    | next before later => omega
  · have apart := (List.nodup_flatMap.1 (shown.nodup_iff.2 distinct)).2
    refine apart.imp_of_mem fun {start other} member _ disjoint same => ?_
    subst same
    obtain ⟨page, inside, rfl⟩ := (visits.mem_iff positive distinct shown).1 member
    have less : page * limit < rows.length := by
      cases page with
      | zero =>
          have positive' := @pageCount_pos rows.length limit
          have first := @page_lt rows.length limit 0 (by omega)
          omega
      | succ page => exact page_lt inside
    have isRow := List.getElem?_eq_getElem less
    have onPage := mem_window.2 ⟨page * limit, le_rfl, Nat.lt_add_of_pos_right positive, isRow⟩
    exact disjoint onPage onPage

theorem visits_of_chain (whole : count ≤ pageCount count limit * limit) {page : ℕ}
    {order : List ℕ} (distinct : (page :: order).Nodup)
    (inside : ∀ other ∈ page :: order, other < pageCount count limit)
    (chain : (page :: order).IsChain fun page next => jump ((page + 1) * limit) = next * limit)
    (ends : (page :: order).getLast? = some (pageCount count limit - 1)) :
    Visits count limit jump (page * limit) ((page :: order).map (· * limit)) := by
  induction order generalizing page with
  | nil =>
      rw [List.getLast?_singleton, Option.some.injEq] at ends
      refine .last ?_
      have positive := @pageCount_pos count limit
      rw [← Nat.succ_mul, Nat.succ_eq_add_one, ends, Nat.sub_add_cancel positive]
      exact whole
  | cons next order ih =>
      obtain ⟨jumps, later⟩ := List.isChain_cons_cons.1 chain
      obtain ⟨fresh, distinct'⟩ := List.nodup_cons.1 distinct
      rw [List.getLast?_cons_cons] at ends
      have notLast : page ≠ pageCount count limit - 1 := by
        rintro rfl
        exact fresh (List.mem_of_getLast? ends)
      have before := inside page List.mem_cons_self
      have less := @page_lt count limit page (by omega)
      rw [Nat.succ_mul] at less jumps
      refine .next less ?_
      rw [jumps]
      exact ih distinct' (fun other member => inside other (List.mem_cons_of_mem _ member)) later
        ends

/-- Some walk shows every row once if and only if the offsets lead through all pages. -/
theorem exists_visits_iff (distinct : rows.Nodup) :
    (∃ starts, Visits rows.length limit jump 0 starts ∧
      (starts.flatMap (window rows limit)).Perm rows) ↔ Leads rows.length limit jump := by
  constructor
  · rintro ⟨starts, visits, shown⟩
    rcases Nat.eq_zero_or_pos limit with rfl | positive
    · have empty : rows = [] := by
        have noRows : starts.flatMap (window rows 0) = [] := by simp [window]
        rw [noRows] at shown
        exact List.nil_perm.1 shown
      subst empty
      exact ⟨Nat.zero_le _, [], by simp [pageCount], List.isChain_singleton _, by simp [pageCount]⟩
    · have mem := @Visits.mem_iff _ rows limit jump starts visits positive distinct shown
      have nodup := visits.nodup positive distinct shown
      obtain ⟨order, rfl⟩ : ∃ order : List ℕ, starts = order.map (· * limit) := by
        refine ⟨starts.map (· / limit), ?_⟩
        rw [List.map_map, eq_comm]
        refine (List.map_congr_left fun start member => ?_).trans (List.map_id starts)
        obtain ⟨page, _, rfl⟩ := mem.1 member
        rw [Function.comp_apply, Nat.mul_div_cancel _ positive, id]
      have inside {page : ℕ} : page ∈ order ↔ page < pageCount rows.length limit := by
        have same := @mem (page * limit)
        rw [List.mem_map_of_injective fun _ _ => Nat.eq_of_mul_eq_mul_right positive] at same
        rw [same]
        constructor
        · rintro ⟨page', less, equal⟩
          rwa [Nat.eq_of_mul_eq_mul_right positive equal]
        · intro less
          exact ⟨page, less, rfl⟩
      have chain := visits.isChain
      rw [List.isChain_map] at chain
      have first := visits.head
      obtain ⟨last, isLast, _, only⟩ := visits.reached
      have whole := @le_pageCount_mul rows.length limit positive
      have lastPage : (pageCount rows.length limit - 1) * limit = last := by
        refine only _ (mem.2 ⟨_, Nat.sub_lt pageCount_pos Nat.one_pos, rfl⟩) ?_
        rwa [← Nat.succ_mul, Nat.succ_eq_add_one, Nat.sub_add_cancel pageCount_pos]
      cases order with
      | nil => cases first
      | cons page order =>
          have atZero : page * limit = 0 := Option.some.inj first
          obtain rfl : page = 0 := (Nat.mul_eq_zero.1 atZero).resolve_right positive.ne'
          refine ⟨whole, order, ?_, ?_, ?_⟩
          · exact (List.perm_ext_iff_of_nodup (List.Nodup.of_map _ nodup) List.nodup_range).2
              fun page => inside.trans List.mem_range.symm
          · simpa only [Nat.succ_mul] using chain
          · rw [List.getLast?_map, Option.map_eq_some_iff] at isLast
            obtain ⟨page, isLast, same⟩ := isLast
            rw [isLast, Nat.eq_of_mul_eq_mul_right positive (same.trans lastPage.symm)]
  · rintro ⟨whole, order, pages, chain, ends⟩
    have inside : ∀ page ∈ 0 :: order, page < pageCount rows.length limit := fun page member =>
      List.mem_range.1 (pages.mem_iff.1 member)
    have visits := visits_of_chain whole (pages.nodup_iff.2 List.nodup_range) inside chain ends
    rw [Nat.zero_mul] at visits
    refine ⟨_, visits, ?_⟩
    have windows := (pages.map (· * limit)).flatMap_right (window rows limit)
    rwa [flatMap_window_range, List.take_of_length_le whole] at windows

/-- A listing of one page needs no offset. -/
theorem leads_of_le (positive : 0 < limit) (le : count ≤ limit) : Leads count limit jump := by
  have single : pageCount count limit = 1 := by
    have below : (count + limit - 1) / limit < 2 := by
      rw [Nat.div_lt_iff_lt_mul positive]
      omega
    unfold pageCount
    omega
  exact ⟨le_pageCount_mul positive, [], by simp [single], List.isChain_singleton _,
    by simp [single]⟩

end Windows

/-! Walks over the windows of a listing. -/

/-- A fetched page shows the window that starts where its offset leads, and names the row behind
it; it fails only if a row does. -/
structure Windows (fetch : Option Offset → Except Error (Page Item Offset)) (limit : ℕ)
    (rows : List Row) (startOf : Option Offset → ℕ) (offsetOf : Row → Offset)
    (shows : Row → Item → Prop) (asked : Option Offset → Prop) : Prop where
  total : ∀ offset, asked offset → (∀ row ∈ rows, ∃ item, shows row item) →
    ∃ page, fetch offset = .ok page
  page : ∀ offset, asked offset → ∀ page, fetch offset = .ok page →
    List.Forall₂ shows (window rows limit (startOf offset)) page.data ∧
      page.nextPageOffset = rows[startOf offset + limit]?.map offsetOf
  asks : ∀ row ∈ rows, asked (some (offsetOf row))

def jumpOf (rows : List Row) (startOf : Option Offset → ℕ) (offsetOf : Row → Offset)
    (index : ℕ) : ℕ :=
  (rows[index]?.map fun row => startOf (some (offsetOf row))).getD 0

namespace Windows

variable {fetch : Option Offset → Except Error (Page Item Offset)} {limit : ℕ} {rows : List Row}
  {startOf : Option Offset → ℕ} {offsetOf : Row → Offset} {shows : Row → Item → Prop}
  {asked : Option Offset → Prop}

theorem nextPageOffset (windows : Windows fetch limit rows startOf offsetOf shows asked)
    {index : ℕ} {following : Offset} (next : some following = rows[index]?.map offsetOf) :
    index < rows.length ∧ asked (some following) ∧
      startOf (some following) = jumpOf rows startOf offsetOf index := by
  obtain ⟨row, found, rfl⟩ := Option.map_eq_some_iff.1 next.symm
  obtain ⟨inside, _⟩ := List.getElem?_eq_some_iff.1 found
  refine ⟨inside, windows.asks row (List.mem_of_getElem? found), ?_⟩
  rw [jumpOf, found, Option.map_some, Option.getD_some]

theorem visits_of_follows (windows : Windows fetch limit rows startOf offsetOf shows asked)
    {offset : Option Offset} {items : List Item} (isAsked : asked offset)
    (follows : Follows fetch offset items) :
    ∃ starts, Visits rows.length limit (jumpOf rows startOf offsetOf) (startOf offset) starts ∧
      List.Forall₂ shows (starts.flatMap (window rows limit)) items := by
  induction follows with
  | @last offset data fetched =>
      obtain ⟨shown, next⟩ := windows.page _ isAsked _ fetched
      rw [eq_comm, Option.map_eq_none_iff, List.getElem?_eq_none_iff] at next
      exact ⟨[startOf offset], .last next, by simpa using shown⟩
  | @next offset following data rest fetched _ ih =>
      obtain ⟨shown, next⟩ := windows.page _ isAsked _ fetched
      obtain ⟨inside, nextAsked, leads⟩ := windows.nextPageOffset next
      obtain ⟨starts, visits, later⟩ := ih nextAsked
      rw [leads] at visits
      refine ⟨startOf offset :: starts, .next inside visits, ?_⟩
      rw [List.flatMap_cons]
      exact List.rel_append shown later

theorem follows_of_visits (windows : Windows fetch limit rows startOf offsetOf shows asked)
    {start : ℕ} {starts : List ℕ}
    (visits : Visits rows.length limit (jumpOf rows startOf offsetOf) start starts)
    (each : ∀ row ∈ rows, ∃ item, shows row item) {offset : Option Offset} (isAsked : asked offset)
    (leads : startOf offset = start) :
    ∃ items, Follows fetch offset items ∧
      List.Forall₂ shows (starts.flatMap (window rows limit)) items := by
  induction visits generalizing offset with
  | @last start reached =>
      subst leads
      obtain ⟨⟨data, following⟩, fetched⟩ := windows.total offset isAsked each
      obtain ⟨shown, next⟩ := windows.page _ isAsked _ fetched
      rw [List.getElem?_eq_none reached] at next
      subst next
      exact ⟨data, .last fetched, by simpa using shown⟩
  | @next start starts before later ih =>
      subst leads
      obtain ⟨⟨data, following⟩, fetched⟩ := windows.total offset isAsked each
      obtain ⟨shown, next⟩ := windows.page _ isAsked _ fetched
      rw [List.getElem?_eq_getElem before, Option.map_some] at next
      simp only at next
      subst next
      obtain ⟨_, nextAsked, leads⟩ := windows.nextPageOffset
        (congrArg (Option.map offsetOf) (List.getElem?_eq_getElem before)).symm
      obtain ⟨items, follows, others⟩ := ih nextAsked leads
      refine ⟨data ++ items, .next fetched follows, ?_⟩
      rw [List.flatMap_cons]
      exact List.rel_append shown others

/-- A walk shows every row once if and only if every row can be shown and the offsets lead through
all pages. -/
theorem yields_iff (windows : Windows fetch limit rows startOf offsetOf shows asked)
    (isAsked : asked none) (first : startOf none = 0) (distinct : rows.Nodup)
    (identifies : ∀ {row other item}, row ∈ rows → other ∈ rows → shows row item →
      shows other item → row = other) :
    (∃ items shown, Follows fetch none items ∧ shown.Perm rows ∧ List.Forall₂ shows shown items) ↔
      (∀ row ∈ rows, ∃ item, shows row item) ∧
        Leads rows.length limit (jumpOf rows startOf offsetOf) := by
  rw [← exists_visits_iff distinct]
  constructor
  · rintro ⟨items, shown, follows, all, isShown⟩
    obtain ⟨starts, visits, isShown'⟩ := windows.visits_of_follows isAsked follows
    rw [first] at visits
    have unique : Relator.LeftUnique fun row item => row ∈ rows ∧ shows row item :=
      fun _ _ _ left right => identifies left.1 right.1 left.2 right.2
    have onPages : ∀ row ∈ starts.flatMap (window rows limit), row ∈ rows := by
      intro row member
      obtain ⟨start, _, isRow⟩ := List.mem_flatMap.1 member
      exact List.mem_of_mem_drop (List.mem_of_mem_take isRow)
    have same := List.left_unique_forall₂' unique
      ((List.forall₂_and_left _ _).2 ⟨fun row member => all.mem_iff.1 member, isShown⟩)
      ((List.forall₂_and_left _ _).2 ⟨onPages, isShown'⟩)
    subst same
    exact ⟨fun row member => exists_of_forall₂ isShown (all.mem_iff.2 member), starts, visits, all⟩
  · rintro ⟨each, starts, visits, all⟩
    obtain ⟨items, follows, isShown⟩ := windows.follows_of_visits visits each isAsked first
    exact ⟨items, _, follows, all, isShown⟩

end Windows

end Paging

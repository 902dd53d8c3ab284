import Mathlib.Data.List.Forall2
import Mathlib.Order.Lattice

/-! Walks over the pages of a listing: each page names where the next one starts, and a page
without such an offset is the last one. A listing whose pages are the pieces of one list of rows
yields every row once. -/

set_option autoImplicit false

namespace Paging

variable {Row Item Offset Error : Type}

structure Page (Item Offset : Type) where
  data : List Item
  nextPageOffset : Option Offset
deriving DecidableEq

/-- The items of all pages from a request on. The first request has no offset. -/
inductive Follows (fetch : Option Offset → Except Error (Page Item Offset)) :
    Option Offset → List Item → Prop where
  | last {offset : Option Offset} {data : List Item} (fetched : fetch offset = .ok ⟨data, none⟩) :
      Follows fetch offset data
  | next {offset : Option Offset} {following : Offset} {data rest : List Item}
      (fetched : fetch offset = .ok ⟨data, some following⟩)
      (later : Follows fetch (some following) rest) : Follows fetch offset (data ++ rest)

theorem Follows.unique {fetch : Option Offset → Except Error (Page Item Offset)}
    {offset : Option Offset} {items items' : List Item} (follows : Follows fetch offset items)
    (follows' : Follows fetch offset items') : items = items' := by
  induction follows generalizing items' with
  | last fetched =>
      cases follows' with
      | last fetched' =>
          rw [fetched] at fetched'
          cases fetched'
          rfl
      | next fetched' _ =>
          rw [fetched] at fetched'
          cases fetched'
  | next fetched _ ih =>
      cases follows' with
      | last fetched' =>
          rw [fetched] at fetched'
          cases fetched'
      | next fetched' later' =>
          rw [fetched] at fetched'
          cases fetched'
          rw [ih later']

/-- The pages of a listing: a page shows the first rows from its offset on, and the row behind
them starts the next page. A page may look at that row too, and fails only if a row does. The
offsets that are asked for include those of the rows. -/
structure Lists (fetch : Option Offset → Except Error (Page Item Offset)) (limit : ℕ)
    (offsetOf : Row → Offset) (shows : Row → Item → Prop) (rowsFrom : Option Offset → List Row)
    (asked : Option Offset → Prop) : Prop where
  positive : 0 < limit
  total : ∀ offset, asked offset → (∀ row ∈ rowsFrom offset, ∃ item, shows row item) →
    ∃ page, fetch offset = .ok page
  page : ∀ offset, asked offset → ∀ page, fetch offset = .ok page →
    List.Forall₂ shows ((rowsFrom offset).take limit) page.data ∧
      page.nextPageOffset = (rowsFrom offset)[limit]?.map offsetOf
  resumes : ∀ {offset before row after}, asked offset → rowsFrom offset = before ++ row :: after →
    asked (some (offsetOf row)) ∧ rowsFrom (some (offsetOf row)) = row :: after

theorem exists_of_forall₂ {shows : Row → Item → Prop} {rows : List Row} {items : List Item}
    (shown : List.Forall₂ shows rows items) {row : Row} (member : row ∈ rows) :
    ∃ item, shows row item := by
  obtain ⟨index, inside, rfl⟩ := List.getElem_of_mem member
  exact ⟨_, (List.forall₂_iff_get.1 shown).2 index inside (shown.length_eq ▸ inside)⟩

namespace Lists

variable {fetch : Option Offset → Except Error (Page Item Offset)} {limit : ℕ}
  {offsetOf : Row → Offset} {shows : Row → Item → Prop} {rowsFrom : Option Offset → List Row}
  {asked : Option Offset → Prop}

theorem rowsFrom_next (lists : Lists fetch limit offsetOf shows rowsFrom asked)
    {offset : Option Offset} {following : Offset} (isAsked : asked offset)
    (next : some following = (rowsFrom offset)[limit]?.map offsetOf) :
    asked (some following) ∧ rowsFrom (some following) = (rowsFrom offset).drop limit := by
  obtain ⟨row, found, rfl⟩ := Option.map_eq_some_iff.1 next.symm
  obtain ⟨inside, same⟩ := List.getElem?_eq_some_iff.1 found
  have rest : (rowsFrom offset).drop limit = row :: (rowsFrom offset).drop (limit + 1) := by
    rw [List.drop_eq_getElem_cons inside, same]
  have split : rowsFrom offset = (rowsFrom offset).take limit ++
      row :: (rowsFrom offset).drop (limit + 1) := by
    rw [← rest, List.take_append_drop]
  rw [rest]
  exact lists.resumes isAsked split

theorem forall₂_of_follows (lists : Lists fetch limit offsetOf shows rowsFrom asked)
    {offset : Option Offset} {items : List Item} (isAsked : asked offset)
    (follows : Follows fetch offset items) : List.Forall₂ shows (rowsFrom offset) items := by
  induction follows with
  | @last offset data fetched =>
      obtain ⟨shown, next⟩ := lists.page _ isAsked _ fetched
      have short : (rowsFrom offset).length ≤ limit := by
        rw [eq_comm, Option.map_eq_none_iff, List.getElem?_eq_none_iff] at next
        exact next
      rwa [List.take_of_length_le short] at shown
  | @next offset following data rest fetched _ ih =>
      obtain ⟨shown, next⟩ := lists.page _ isAsked _ fetched
      obtain ⟨nextAsked, rest⟩ := lists.rowsFrom_next isAsked next
      rw [rest] at ih
      rw [← List.take_append_drop limit (rowsFrom offset)]
      exact List.rel_append shown (ih nextAsked)

theorem exists_follows (lists : Lists fetch limit offsetOf shows rowsFrom asked)
    (offset : Option Offset) (isAsked : asked offset)
    (each : ∀ row ∈ rowsFrom offset, ∃ item, shows row item) :
    ∃ items, Follows fetch offset items := by
  -- Every page shows at least one row, so the rows that are left get fewer.
  generalize size : (rowsFrom offset).length = length
  induction length using Nat.strong_induction_on generalizing offset with
  | _ length ih =>
      obtain ⟨page, fetched⟩ := lists.total offset isAsked each
      have next := (lists.page _ isAsked _ fetched).2
      obtain ⟨data, nextPageOffset⟩ := page
      cases nextPageOffset with
      | none => exact ⟨data, .last fetched⟩
      | some following =>
          obtain ⟨nextAsked, rest⟩ := lists.rowsFrom_next isAsked next
          have shorter : (rowsFrom (some following)).length < length := by
            obtain ⟨row, found, _⟩ := Option.map_eq_some_iff.1 next.symm
            have inside := (List.getElem?_eq_some_iff.1 found).1
            have positive := lists.positive
            rw [rest, List.length_drop]
            omega
          obtain ⟨items, later⟩ := ih _ shorter (some following) nextAsked (fun row member =>
            each row (List.mem_of_mem_drop (rest ▸ member))) rfl
          exact ⟨data ++ items, .next fetched later⟩

/-- A walk yields the rows in their order, each once, and it ends exactly if every row can be
shown. -/
theorem follows_iff (lists : Lists fetch limit offsetOf shows rowsFrom asked)
    {offset : Option Offset} (isAsked : asked offset) :
    (∃ items, Follows fetch offset items ∧ List.Forall₂ shows (rowsFrom offset) items) ↔
      ∀ row ∈ rowsFrom offset, ∃ item, shows row item := by
  constructor
  · rintro ⟨items, _, shown⟩ row member
    exact exists_of_forall₂ shown member
  · intro each
    obtain ⟨items, follows⟩ := lists.exists_follows offset isAsked each
    exact ⟨items, follows, lists.forall₂_of_follows isAsked follows⟩

end Lists

/-! Rows that are shown in two steps. -/

section Steps

variable {Value : Type} {rows : List Row}

theorem exists_forall₂ {shows : Row → Item → Prop} (each : ∀ row ∈ rows, ∃ item, shows row item) :
    ∃ items, List.Forall₂ shows rows items := by
  induction rows with
  | nil => exact ⟨[], .nil⟩
  | cons row rows ih =>
      obtain ⟨⟨item, shown⟩, later⟩ := List.forall_mem_cons.1 each
      obtain ⟨items, others⟩ := ih later
      exact ⟨item :: items, .cons shown others⟩

theorem forall₂_comp {finds : Row → Value → Prop} {renders : Value → Item → Prop}
    {values : List Value} {items : List Item} (found : List.Forall₂ finds rows values)
    (rendered : List.Forall₂ renders values items) :
    List.Forall₂ (fun row item => ∃ value, finds row value ∧ renders value item) rows items := by
  induction found generalizing items with
  | nil =>
      cases rendered
      exact .nil
  | cons first _ ih =>
      cases rendered with
      | cons shown others => exact .cons ⟨_, first, shown⟩ (ih others)

end Steps

/-! The rows of an ordered listing from an offset on. -/

section Ordered

variable {Position : Type} [LinearOrder Position] (positionOf : Row → Position) (rows : List Row)

/-- The rows of an ascending listing. -/
def fromPosition : Option Position → List Row
  | none => rows
  | some position => rows.filter fun row => position ≤ positionOf row

/-- The rows of a descending listing. -/
def downFrom : Option Position → List Row
  | none => rows
  | some position => rows.filter fun row => positionOf row ≤ position

variable {positionOf rows}

theorem fromPosition_resumes
    (ascending : rows.Pairwise fun left right => positionOf left < positionOf right)
    {offset : Option Position} {before after : List Row} {row : Row}
    (split : fromPosition positionOf rows offset = before ++ row :: after) :
    fromPosition positionOf rows (some (positionOf row)) = row :: after := by
  have narrowed : fromPosition positionOf rows (some (positionOf row)) =
      (before ++ row :: after).filter fun other => positionOf row ≤ positionOf other := by
    rw [← split]
    cases offset with
    | none => rfl
    | some position =>
        have member : row ∈ fromPosition positionOf rows (some position) := by
          rw [split]
          exact List.mem_append_right _ List.mem_cons_self
        have above : position ≤ positionOf row := by
          simpa using (List.mem_filter.1 member).2
        rw [fromPosition, fromPosition, List.filter_filter]
        refine List.filter_congr fun other _ => ?_
        simpa using fun later => above.trans later
  have sorted : (before ++ row :: after).Pairwise
      fun left right => positionOf left < positionOf right := by
    rw [← split]
    cases offset with
    | none => exact ascending
    | some position => exact ascending.filter _
  rw [List.pairwise_append, List.pairwise_cons] at sorted
  obtain ⟨_, ⟨behind, _⟩, across⟩ := sorted
  rw [narrowed, List.filter_append, List.filter_eq_nil_iff.2, List.nil_append,
    List.filter_eq_self.2]
  · intro other member
    rcases List.mem_cons.1 member with rfl | later
    · simp
    · simpa using (behind other later).le
  · intro other member
    simpa using across other member row List.mem_cons_self

theorem downFrom_resumes
    (descending : rows.Pairwise fun left right => positionOf right < positionOf left)
    {offset : Option Position} {before after : List Row} {row : Row}
    (split : downFrom positionOf rows offset = before ++ row :: after) :
    downFrom positionOf rows (some (positionOf row)) = row :: after :=
  @fromPosition_resumes Row Positionᵒᵈ _ (fun row => OrderDual.toDual (positionOf row)) rows
    descending (offset.map OrderDual.toDual) before after row (by cases offset <;> exact split)

end Ordered

end Paging

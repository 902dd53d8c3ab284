import Krc721.Accessor.Pages
import Krc721.View.ListingProperties

/-! The pages of the accessor are pages of a listing: what the query takes, what is split off,
and what a request without an offset starts with. -/

set_option autoImplicit false

namespace Krc721

open OrderedStore SymbolStream

section Pages

variable {Key Value Item Offset : Type}

theorem collectSplitLastResult_entries {items : List (Except ViewError Value)} {init : List Value}
    {last : Option Value} {page : Option (List Value × Value)}
    (success : collectSplitLastResult init last items = .ok page)
    (known : last = none → init = []) :
    ∃ values, items = values.map .ok ∧ pageEntries page = init ++ last.toList ++ values := by
  induction items generalizing init last with
  | nil =>
      cases success
      refine ⟨[], rfl, ?_⟩
      cases last with
      | none => simp [pageEntries, known rfl]
      | some value => simp [pageEntries]
  | cons item items ih =>
      cases item with
      | error error => cases success
      | ok value =>
          obtain ⟨values, same, entries⟩ := ih success (by simp)
          refine ⟨value :: values, by rw [same, List.map_cons], ?_⟩
          rw [entries]
          simp

theorem processIter_entries {iter : List Key} {limit : ℕ} {f : Key → Except ViewError Value}
    {page : Option (List Value × Value)} (success : processIter iter limit f = .ok page) :
    List.Forall₂ (fun key value => f key = .ok value) (iter.take (limit + 1))
      (pageEntries page) := by
  obtain ⟨values, same, entries⟩ := collectSplitLastResult_entries success (fun _ => rfl)
  rw [← List.map_take] at same
  rw [entries, Option.toList_none, List.nil_append, List.nil_append]
  exact collect_map_eq_ok_iff.1 (by rw [same, collect_map_ok])

theorem toPaginated_eq {page : Option (List Value × Value)} {limit : ℕ}
    (taken : (pageEntries page).length ≤ limit + 1) (convert : Value → Offset) :
    toPaginated page limit convert =
      ⟨(pageEntries page).take limit, (pageEntries page)[limit]?.map convert⟩ := by
  match page with
  | none => simp [toPaginated, pageEntries]
  | some (container, lastElement) =>
      simp only [pageEntries, List.length_append, List.length_singleton] at taken ⊢
      simp only [toPaginated]
      split
      · rename_i shorter
        rw [List.take_of_length_le (by simpa using shorter), List.getElem?_eq_none]
        · rfl
        · simpa using shorter
      · rename_i full
        have length : limit = container.length := by omega
        subst length
        simp

/-- The page of what was found for one row more than the limit, and where the next one starts. -/
theorem toPaginated_of_forall₂ {limit : ℕ} {convert : Value → Offset} {offsetOf : Key → Offset}
    {iter : List Key} {splitLast : Option (List Value × Value)} {finds : Key → Value → Prop}
    (shown : List.Forall₂ finds (iter.take (limit + 1)) (pageEntries splitLast))
    (converts : ∀ key value, finds key value → convert value = offsetOf key) :
    List.Forall₂ finds (iter.take limit) (toPaginated splitLast limit convert).data ∧
      (toPaginated splitLast limit convert).nextPageOffset = iter[limit]?.map offsetOf := by
  have taken : (pageEntries splitLast).length ≤ limit + 1 := by
    rw [← shown.length_eq, List.length_take]
    exact min_le_left _ _
  rw [toPaginated_eq taken]
  constructor
  · have first := List.forall₂_take limit shown
    rwa [List.take_take, min_eq_left (Nat.le_succ limit)] at first
  · have same : iter[limit]? = (iter.take (limit + 1))[limit]? := by
      rw [List.getElem?_take_of_lt (Nat.lt_succ_self limit)]
    rw [same]
    generalize pageEntries splitLast = entries at shown
    generalize iter.take (limit + 1) = keys at shown
    clear taken same
    induction shown generalizing limit with
    | nil => rfl
    | cons found _ ih =>
        cases limit with
        | zero => simpa using converts _ _ found
        | succ limit => simpa using ih

section Lists

variable {rowsFrom : Option Offset → List Key} {limit : ℕ} {f : Key → Except ViewError Value}
  {convert : Value → Offset} {offsetOf : Key → Offset} {render : Value → Except TxScriptError Item}
  {shows : Key → Item → Prop}

/-- What is found for the rows of a query can be rendered, if every row can be shown. -/
theorem renders_of_each {iter : List Key}
    (each : ∀ key ∈ iter, ∃ item, ∃ value, f key = .ok value ∧ render value = .ok item) :
    ∃ splitLast, processIter iter limit f = .ok splitLast ∧
      ∀ value ∈ pageEntries splitLast, ∃ item, render value = .ok item := by
  refine processIter_ok (fun key member => ?_) limit
  obtain ⟨item, value, found, rendered⟩ := each key member
  exact ⟨value, found, item, rendered⟩

theorem exists_collect {values : List Value}
    (each : ∀ value ∈ values, ∃ item, render value = .ok item) :
    ∃ items, collect (values.map render) = .ok items := by
  obtain ⟨items, rendered⟩ := Paging.exists_forall₂ each
  exact ⟨items, collect_map_eq_ok_iff.2 rendered⟩

theorem mem_pageEntries_of_mem_data {splitLast : Option (List Value × Value)} {value : Value}
    (member : value ∈ (toPaginated splitLast limit convert).data) :
    value ∈ pageEntries splitLast := by
  match splitLast with
  | none => exact member
  | some (container, lastElement) =>
      simp only [toPaginated] at member
      split at member
      · exact member
      · exact List.mem_append_left _ member

theorem renderedPage_ok {iter : List Key} (limit : ℕ) (convert : Value → Offset)
    (each : ∀ key ∈ iter, ∃ item, ∃ value, f key = .ok value ∧ render value = .ok item) :
    ∃ page, renderedPage (processIter iter limit f) limit convert render = .ok page := by
  obtain ⟨splitLast, found, renders⟩ := renders_of_each each
  obtain ⟨items, rendered⟩ := exists_collect (fun value member =>
    renders value (@mem_pageEntries_of_mem_data _ _ limit convert splitLast value member))
  refine ⟨⟨items, (toPaginated splitLast limit convert).nextPageOffset⟩, ?_⟩
  rw [found]
  simp only [renderedPage, rendered]

/-- What a returned page shows, and where the next one starts. -/
theorem renderedPage_shows {iter : List Key} {page : Pagination Item Offset}
    (success : renderedPage (processIter iter limit f) limit convert render = .ok page)
    (converts : ∀ key value, f key = .ok value → convert value = offsetOf key)
    (shown : ∀ key item, shows key item ↔ ∃ value, f key = .ok value ∧ render value = .ok item) :
    List.Forall₂ shows (iter.take limit) page.data ∧
      page.nextPageOffset = iter[limit]?.map offsetOf := by
  cases found : processIter iter limit f with
  | error error =>
      rw [found] at success
      cases success
  | ok splitLast =>
      obtain ⟨values, next⟩ := toPaginated_of_forall₂ (processIter_entries found) converts
      rw [found] at success
      simp only [renderedPage] at success
      split at success
      · cases success
      · rename_i data rendered
        cases success
        have items := Paging.forall₂_comp values (collect_map_eq_ok_iff.1 rendered)
        exact ⟨items.imp fun key item => (shown key item).2, next⟩

/-- The pages of a query whose elements are rendered. -/
theorem renderedPage_lists (f : Key → Except ViewError Value) (convert : Value → Offset)
    (render : Value → Except TxScriptError Item)
    {fetch : Option Offset → Except CoreError (Pagination Item Offset)}
    (fetched : ∀ offset, fetch offset =
      renderedPage (processIter (rowsFrom offset) limit f) limit convert render)
    (positive : 0 < limit)
    (converts : ∀ key value, f key = .ok value → convert value = offsetOf key)
    (resumes : ∀ {offset before row after}, rowsFrom offset = before ++ row :: after →
      rowsFrom (some (offsetOf row)) = row :: after)
    (shown : ∀ key item, shows key item ↔ ∃ value, f key = .ok value ∧ render value = .ok item) :
    Paging.Lists fetch limit offsetOf shows rowsFrom (fun _ => True) where
  positive := positive
  resumes := fun _ split => ⟨trivial, resumes split⟩
  total := by
    intro offset _ each
    simp only [shown] at each
    rw [fetched]
    exact renderedPage_ok limit convert each
  page := by
    intro offset _ page success
    rw [fetched] at success
    exact renderedPage_shows success converts shown

/-- The pages of a query of which the last element is rendered as well. -/
theorem renderedBefore_lists (f : Key → Except ViewError Value) (convert : Item → Offset)
    (render : Value → Except TxScriptError Item)
    {fetch : Option Offset → Except CoreError (Pagination Item Offset)}
    (fetched : ∀ offset, fetch offset =
      renderedBefore (processIter (rowsFrom offset) limit f) limit convert render)
    (positive : 0 < limit)
    (converts : ∀ key value item, f key = .ok value → render value = .ok item →
      convert item = offsetOf key)
    (resumes : ∀ {offset before row after}, rowsFrom offset = before ++ row :: after →
      rowsFrom (some (offsetOf row)) = row :: after)
    (shown : ∀ key item, shows key item ↔ ∃ value, f key = .ok value ∧ render value = .ok item) :
    Paging.Lists fetch limit offsetOf shows rowsFrom (fun _ => True) where
  positive := positive
  resumes := fun _ split => ⟨trivial, resumes split⟩
  total := by
    intro offset _ each
    simp only [shown] at each
    obtain ⟨splitLast, found, renders⟩ := renders_of_each each
    rw [fetched, found]
    match splitLast with
    | none => exact ⟨_, rfl⟩
    | some (container, last) =>
        obtain ⟨items, rendered⟩ := exists_collect (fun value member =>
          renders value (List.mem_append_left _ member))
        obtain ⟨item, lastRendered⟩ :=
          renders last (List.mem_append_right _ (List.mem_singleton_self last))
        simp only [renderedBefore, rendered, lastRendered]
        exact ⟨_, rfl⟩
  page := by
    intro offset _ page success
    rw [fetched] at success
    cases found : processIter (rowsFrom offset) limit f with
    | error error =>
        rw [found] at success
        cases success
    | ok splitLast =>
        have values := processIter_entries found
        rw [found] at success
        match splitLast with
        | none =>
            cases success
            have rows : (rowsFrom offset).take (limit + 1) = [] :=
              List.forall₂_nil_right_iff.1 values
            rcases List.take_eq_nil_iff.1 rows with noLimit | empty
            · cases noLimit
            · simp [empty]
        | some (container, last) =>
            simp only [renderedBefore] at success
            split at success
            · cases success
            · rename_i items rendered
              split at success
              · cases success
              · rename_i item lastRendered
                cases success
                have entries : List.Forall₂ (fun value item => render value = .ok item)
                    (pageEntries (some (container, last))) (pageEntries (some (items, item))) :=
                  List.rel_append (collect_map_eq_ok_iff.1 rendered) (.cons lastRendered .nil)
                have items := Paging.forall₂_comp values entries
                refine toPaginated_of_forall₂ (items.imp fun key item => (shown key item).2) ?_
                intro key item isShown
                obtain ⟨value, found, rendered⟩ := (shown key item).1 isShown
                exact converts key value item found rendered

end Lists

end Pages

end Krc721

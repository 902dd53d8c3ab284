import Mathlib.Data.List.Infix
import Mathlib.Data.List.Forall2

/-! Readers of a stream of symbols: an item is taken off the front until the stream is
empty. Next to them stand the search for a window and the collection of fallible items. -/

set_option autoImplicit false

namespace SymbolStream

variable {Symbol Item Error Value Result : Type}

/-- Reads one item from a stream that is not empty, and leaves the rest of the stream. -/
structure Reader (Symbol Item : Type) where
  next : Symbol → List Symbol → Item × List Symbol
  rest_le : ∀ symbol rest, (next symbol rest).2.length ≤ rest.length

namespace Reader

variable (reader : Reader Symbol Item)

/-- At most `fuel` items. -/
def batchingWithin : ℕ → List Symbol → List Item
  | 0, _ => []
  | _ + 1, [] => []
  | fuel + 1, symbol :: rest =>
      (reader.next symbol rest).1 :: batchingWithin fuel (reader.next symbol rest).2

/-- All items. Every item takes at least one symbol, so the length of the stream is
enough fuel. -/
def batching (stream : List Symbol) : List Item := reader.batchingWithin stream.length stream

/-- Two amounts of fuel that cover the stream read the same. -/
theorem batchingWithin_congr (fuel fuel' : ℕ) (stream : List Symbol)
    (enough : stream.length ≤ fuel) (enough' : stream.length ≤ fuel') :
    reader.batchingWithin fuel stream = reader.batchingWithin fuel' stream := by
  induction fuel generalizing fuel' stream with
  | zero =>
      obtain rfl := List.length_eq_zero_iff.1 (Nat.le_zero.1 enough)
      cases fuel' <;> rfl
  | succ fuel ih =>
      cases stream with
      | nil => cases fuel' <;> rfl
      | cons symbol rest =>
          cases fuel' with
          | zero => simp at enough'
          | succ fuel' =>
              have shorter := reader.rest_le symbol rest
              simp only [List.length_cons, Nat.add_le_add_iff_right] at enough enough'
              rw [batchingWithin, batchingWithin,
                ih fuel' _ (le_trans shorter enough) (le_trans shorter enough')]

theorem batching_cons (symbol : Symbol) (rest : List Symbol) :
    reader.batching (symbol :: rest) =
      (reader.next symbol rest).1 :: reader.batching (reader.next symbol rest).2 := by
  rw [batching, List.length_cons, batchingWithin, batching,
    batchingWithin_congr reader rest.length _ _ (reader.rest_le symbol rest) le_rfl]

/-- Every item was read off the front of some stream. -/
theorem mem_batching {stream : List Symbol} {item : Item} (member : item ∈ reader.batching stream) :
    ∃ symbol rest, item = (reader.next symbol rest).1 := by
  suffices within : ∀ fuel stream, item ∈ reader.batchingWithin fuel stream →
      ∃ symbol rest, item = (reader.next symbol rest).1 from within _ _ member
  intro fuel
  induction fuel with
  | zero => simp [batchingWithin]
  | succ fuel ih =>
      intro stream member
      cases stream with
      | nil => simp [batchingWithin] at member
      | cons symbol rest =>
          rw [batchingWithin, List.mem_cons] at member
          cases member with
          | inl first => exact ⟨symbol, rest, first⟩
          | inr later => exact ih _ later

/-- The code reads as one item, whatever stands behind it. -/
def Reads (code : List Symbol) (item : Item) : Prop :=
  ∃ symbol rest, code = symbol :: rest ∧
    ∀ tail, reader.next symbol (rest ++ tail) = (item, tail)

variable {reader}

theorem Reads.batching_append {code : List Symbol} {item : Item} (reads : reader.Reads code item)
    (tail : List Symbol) : reader.batching (code ++ tail) = item :: reader.batching tail := by
  obtain ⟨symbol, rest, rfl, next⟩ := reads
  rw [List.cons_append, batching_cons, next tail]

/-- A stream put together from codes reads as their items. -/
theorem batching_flatten {codes : List (List Symbol)} {items : List Item}
    (reads : List.Forall₂ reader.Reads codes items) : reader.batching codes.flatten = items := by
  induction reads with
  | nil => rfl
  | cons first _ ih => rw [List.flatten_cons, first.batching_append, ih]

end Reader

/-! The first failure ends a sequence. -/

/-- The items of a list of results, or its first error. -/
def collect : List (Except Error Item) → Except Error (List Item)
  | [] => .ok []
  | .error error :: _ => .error error
  | .ok item :: results =>
      match collect results with
      | .error error => .error error
      | .ok items => .ok (item :: items)

theorem collect_map_ok (items : List Item) :
    (collect (items.map .ok) : Except Error (List Item)) = .ok items := by
  induction items with
  | nil => rfl
  | cons item items ih => simp [collect, ih]

theorem eq_map_ok_of_collect {results : List (Except Error Item)} {items : List Item}
    (collected : collect results = .ok items) : results = items.map .ok := by
  induction results generalizing items with
  | nil =>
      cases collected
      rfl
  | cons result results ih =>
      cases result with
      | error error => simp [collect] at collected
      | ok item =>
          simp only [collect] at collected
          cases rest : collect results with
          | error error => simp [rest] at collected
          | ok others =>
              simp only [rest, Except.ok.injEq] at collected
              rw [← collected, List.map_cons, ← ih rest]

/-- The items that are collected from a list are the results of its members. -/
theorem collect_map_eq_ok_iff {render : Value → Except Error Item} {values : List Value}
    {items : List Item} :
    collect (values.map render) = .ok items ↔
      List.Forall₂ (fun value item => render value = .ok item) values items := by
  have pairs : List.Forall₂ (fun value item => render value = .ok item) values items ↔
      values.map render = items.map .ok := by
    rw [← List.forall₂_eq_eq_eq, List.forall₂_map_left_iff, List.forall₂_map_right_iff]
  rw [pairs]
  constructor
  · exact eq_map_ok_of_collect
  · intro same
    rw [same, collect_map_ok]

theorem bind_eq_ok {source : Except Error Value} {continuation : Value → Except Error Result}
    {result : Result} :
    (source >>= continuation) = .ok result ↔
      ∃ value, source = .ok value ∧ continuation value = .ok result := by
  cases source with
  | error error => simp [bind, Except.bind]
  | ok value => simp [bind, Except.bind]

theorem bind_eq_error {source : Except Error Value}
    {continuation : Value → Except Error Result} {error : Error} :
    (source >>= continuation) = .error error ↔
      source = .error error ∨ ∃ value, source = .ok value ∧ continuation value = .error error := by
  cases source with
  | error error' => simp [bind, Except.bind]
  | ok value => simp [bind, Except.bind]

/-! The search for a window. -/

section Window

variable [DecidableEq Symbol]

/-- The first position, counted from `position`, at which the needle stands. -/
def findFrom (needle : List Symbol) : ℕ → List Symbol → Option ℕ
  | _, [] => none
  | position, symbol :: rest =>
      if needle <+: symbol :: rest then some position
      else findFrom needle (position + 1) rest

/-- The search skips the first `offset` symbols. -/
def windowFind (offset : ℕ) (haystack needle : List Symbol) : Option ℕ :=
  if haystack.length ≤ offset then none
  else findFrom needle offset (haystack.drop offset)

theorem isSome_findFrom_iff {needle : List Symbol} (nonempty : needle ≠ []) (position : ℕ)
    (haystack : List Symbol) :
    (findFrom needle position haystack).isSome ↔ needle <:+: haystack := by
  induction haystack generalizing position with
  | nil => simp [findFrom, nonempty]
  | cons symbol rest ih =>
      rw [findFrom, List.infix_cons_iff]
      by_cases here : needle <+: symbol :: rest
      · simp [here]
      · simp [here, ih]

theorem isSome_windowFind_iff {needle : List Symbol} (nonempty : needle ≠ []) (offset : ℕ)
    (haystack : List Symbol) :
    (windowFind offset haystack needle).isSome ↔ needle <:+: haystack.drop offset := by
  unfold windowFind
  split
  · rename_i short
    simp [List.drop_eq_nil_of_le short, nonempty]
  · exact isSome_findFrom_iff nonempty offset _

/-- A needle that stands behind the skipped symbols is found. -/
theorem isSome_windowFind {needle : List Symbol} (nonempty : needle ≠ []) {offset : ℕ}
    {front : List Symbol} (behind : offset ≤ front.length) (back : List Symbol) :
    (windowFind offset (front ++ needle ++ back) needle).isSome := by
  rw [isSome_windowFind_iff nonempty, List.append_assoc,
    List.drop_append_of_le_length behind]
  exact ⟨front.drop offset, back, by rw [List.append_assoc]⟩

end Window

end SymbolStream

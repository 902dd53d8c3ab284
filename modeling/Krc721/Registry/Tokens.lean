import Mathlib.Logic.Function.Basic
import Mathlib.Data.Nat.Basic
import Mathlib.Data.Set.Defs

/-! A registry of numbered tokens in collections: the terms of each collection, the owner of each
token, the offers that are open, and the discounts. It says which events are allowed and what
they do, and nothing about how the registry is stored. -/

set_option autoImplicit false

namespace TokenRegistry

structure Royalty (Address : Type) where
  beneficiary : Address
  fee : ℕ

structure Terms (Address : Type) where
  deployer : Address
  supply : ℕ
  /-- The tokens with the least numbers go to the deployer. -/
  premint : ℕ
  opens : ℕ
  royalty : Option (Royalty Address)

@[ext] structure Registry (Collection Address Offer : Type) where
  terms : Collection → Option (Terms Address)
  owner : Collection × ℕ → Option Address
  offer : Collection × ℕ → Option Offer
  discount : Collection × Address → Option ℕ

inductive Event (Collection Address Offer : Type) where
  | deploy (collection : Collection) (terms : Terms Address)
  | mint (token : Collection × ℕ) (recipient : Address) (paid : Option (Royalty Address)) (time : ℕ)
  | transfer (token : Collection × ℕ) (sender recipient : Address)
  | discount (collection : Collection) (sender recipient : Address) (fee : ℕ)
  | list (token : Collection × ℕ) (sender : Address) (offer : Offer) (locked : Prop)
  | settle (token : Collection × ℕ) (offer : Offer) (buyer : Option Address)

variable {Collection Address Offer : Type}

namespace Event

/-- The new owner that an event gives a token. -/
def gives [DecidableEq Collection] (token : Collection × ℕ) :
    Event Collection Address Offer → Option Address
  | .deploy collection terms =>
      if token.1 = collection ∧ 1 ≤ token.2 ∧ token.2 ≤ terms.premint then some terms.deployer
      else none
  | .mint minted recipient _ _ => if token = minted then some recipient else none
  | .transfer moved _ recipient => if token = moved then some recipient else none
  | .settle sold _ buyer => if token = sold then buyer else none
  | .discount .. | .list .. => none

end Event

namespace Registry

def empty : Registry Collection Address Offer where
  terms := fun _ => none
  owner := fun _ => none
  offer := fun _ => none
  discount := fun _ => none

/-- A payment that meets a royalty: to its beneficiary, and of the discounted fee at least. -/
def Pays (registry : Registry Collection Address Offer) (collection : Collection)
    (recipient : Address) (royalty : Royalty Address) (paid : Option (Royalty Address)) :
    Prop :=
  ∃ given, paid = some given ∧ given.beneficiary = royalty.beneficiary ∧
    (registry.discount (collection, recipient)).getD royalty.fee ≤ given.fee

/-- What the registry asks of an event. -/
def Allows (registry : Registry Collection Address Offer) :
    Event Collection Address Offer → Prop
  | .deploy collection terms => registry.terms collection = none ∧ terms.premint ≤ terms.supply
  | .mint token recipient paid time => ∃ terms, registry.terms token.1 = some terms ∧
      terms.opens ≤ time ∧ terms.premint < token.2 ∧ token.2 ≤ terms.supply ∧
      registry.owner token = none ∧
      ∀ royalty, terms.royalty = some royalty → registry.Pays token.1 recipient royalty paid
  | .transfer token sender _ => registry.owner token = some sender ∧ registry.offer token = none
  | .discount collection sender _ fee => ∃ terms royalty, registry.terms collection = some terms ∧
      terms.deployer = sender ∧ terms.royalty = some royalty ∧ fee < royalty.fee
  | .list token sender _ locked =>
      registry.owner token = some sender ∧ registry.offer token = none ∧ locked
  | .settle token offer _ => registry.offer token = some offer

/-- The numbers of a collection that have an owner. -/
def owned (registry : Registry Collection Address Offer) (collection : Collection) : Set ℕ :=
  {number | (registry.owner (collection, number)).isSome}

/-- The royalty that a recipient is asked for. -/
def fee (registry : Registry Collection Address Offer) (collection : Collection)
    (recipient : Address) : Option ℕ :=
  (registry.terms collection).bind fun terms =>
    (registry.discount (collection, recipient)).or (terms.royalty.map (·.fee))

variable [DecidableEq Collection] [DecidableEq Address]

/-- What an event does. -/
def apply (registry : Registry Collection Address Offer)
    (event : Event Collection Address Offer) : Registry Collection Address Offer where
  terms :=
    match event with
    | .deploy collection terms => Function.update registry.terms collection (some terms)
    | _ => registry.terms
  owner := fun token => (event.gives token).or (registry.owner token)
  offer :=
    match event with
    | .list token _ offer _ => Function.update registry.offer token (some offer)
    | .settle token _ _ => Function.update registry.offer token none
    | _ => registry.offer
  discount :=
    match event with
    | .discount collection _ recipient fee =>
        Function.update registry.discount (collection, recipient) (some fee)
    | _ => registry.discount

variable {registry : Registry Collection Address Offer}

theorem owner_apply {event : Event Collection Address Offer} (token : Collection × ℕ) :
    (registry.apply event).owner token = (event.gives token).or (registry.owner token) := rfl

theorem terms_deploy {collection : Collection} {terms : Terms Address} :
    (registry.apply (.deploy collection terms)).terms =
      Function.update registry.terms collection (some terms) := rfl

theorem owner_transfer {token : Collection × ℕ} {sender recipient : Address} :
    (registry.apply (.transfer token sender recipient)).owner =
      Function.update registry.owner token (some recipient) := by
  funext other
  rw [owner_apply, Event.gives, Function.update_apply]
  split <;> simp

theorem offer_list {token : Collection × ℕ} {sender : Address} {offer : Offer} {locked : Prop} :
    (registry.apply (.list token sender offer locked)).offer =
      Function.update registry.offer token (some offer) := rfl

theorem offer_settle {token : Collection × ℕ} {offer : Offer} {buyer : Option Address} :
    (registry.apply (.settle token offer buyer)).offer =
      Function.update registry.offer token none := rfl

end Registry

open Registry

variable [DecidableEq Collection] [DecidableEq Address]
variable {registry registry' : Registry Collection Address Offer}
variable {event : Event Collection Address Offer} {events : List (Event Collection Address Offer)}

/-- Events from the empty registry on, each of them allowed. -/
inductive History :
    List (Event Collection Address Offer) → Registry Collection Address Offer → Prop where
  | empty : History [] .empty
  | next {events : List (Event Collection Address Offer)}
      {registry : Registry Collection Address Offer} {event : Event Collection Address Offer}
      (earlier : History events registry) (allowed : registry.Allows event) :
      History (events ++ [event]) (registry.apply event)

/-! What holds after every history. -/

/-- Owned tokens belong to a collection and are within its supply, the preminted ones are owned,
and only owned tokens are offered. -/
structure Sound (registry : Registry Collection Address Offer) : Prop where
  owned : ∀ token, (registry.owner token).isSome →
    ∃ terms, registry.terms token.1 = some terms ∧ 1 ≤ token.2 ∧ token.2 ≤ terms.supply
  preminted : ∀ {collection terms}, registry.terms collection = some terms →
    ∀ {number}, 1 ≤ number → number ≤ terms.premint →
      (registry.owner (collection, number)).isSome
  offered : ∀ token, (registry.offer token).isSome → (registry.owner token).isSome

theorem Event.isSome_gives {token : Collection × ℕ} (allowed : registry.Allows event)
    (sound : Sound registry) (given : (event.gives token).isSome) :
    ∃ terms, (registry.apply event).terms token.1 = some terms ∧ 1 ≤ token.2 ∧
      token.2 ≤ terms.supply := by
  cases event with
  | deploy collection terms =>
      simp only [gives] at given
      split at given
      · rename_i within
        obtain ⟨same, positive, le⟩ := within
        refine ⟨terms, ?_, positive, Nat.le_trans le allowed.2⟩
        rw [terms_deploy, same, Function.update_self]
      · cases given
  | mint minted recipient paid time =>
      simp only [gives] at given
      split at given
      · rename_i same
        obtain ⟨terms, found, _, above, le, _⟩ := allowed
        rw [same]
        exact ⟨terms, found, Nat.one_le_of_lt above, le⟩
      · cases given
  | transfer moved sender recipient =>
      simp only [gives] at given
      split at given
      · rename_i same
        rw [same]
        exact sound.owned moved (by rw [allowed.1]; rfl)
      · cases given
  | settle sold offer buyer =>
      simp only [gives] at given
      split at given
      · rename_i same
        rw [same]
        exact sound.owned sold (sound.offered sold (by rw [allowed]; rfl))
      · cases given
  | discount collection sender recipient fee => cases given
  | list listed sender offer locked => cases given

theorem Sound.apply (sound : Sound registry) (allowed : registry.Allows event) :
    Sound (registry.apply event) := by
  have owned : ∀ token, (registry.owner token).isSome →
      ((registry.apply event).owner token).isSome := by
    intro token present
    rw [owner_apply, Option.isSome_or, present, Bool.or_true]
  constructor
  case owned =>
    intro token present
    rw [owner_apply, Option.isSome_or, Bool.or_eq_true] at present
    rcases present with given | before
    · exact event.isSome_gives allowed sound given
    · obtain ⟨terms, found, bounds⟩ := sound.owned token before
      refine ⟨terms, ?_, bounds⟩
      cases event with
      | deploy collection deployed =>
          rw [terms_deploy, Function.update_of_ne, found]
          intro same
          rw [same, allowed.1] at found
          cases found
      | _ => exact found
  case preminted =>
    intro collection terms found number positive le
    have before (earlier : registry.terms collection = some terms) :
        ((registry.apply event).owner (collection, number)).isSome :=
      owned _ (sound.preminted earlier positive le)
    cases event with
    | deploy deployed given =>
        by_cases same : collection = deployed
        · subst same
          rw [terms_deploy, Function.update_self, Option.some_inj] at found
          subst found
          rw [owner_apply, Event.gives, if_pos ⟨rfl, positive, le⟩]
          rfl
        · rw [terms_deploy, Function.update_of_ne same] at found
          exact before found
    | _ => exact before found
  case offered =>
    intro token present
    apply owned
    cases event with
    | list listed sender offer locked =>
        by_cases same : token = listed
        · rw [same, allowed.1]
          rfl
        · rw [offer_list, Function.update_of_ne same] at present
          exact sound.offered token present
    | settle sold offer buyer =>
        by_cases same : token = sold
        · rw [same, offer_settle, Function.update_self] at present
          cases present
        · rw [offer_settle, Function.update_of_ne same] at present
          exact sound.offered token present
    | _ => exact sound.offered token present

namespace History

theorem sound (history : History events registry) : Sound registry := by
  induction history with
  | empty =>
      constructor
      case owned =>
        intro token present
        cases present
      case preminted =>
        intro collection terms found
        cases found
      case offered =>
        intro token present
        cases present
  | next earlier allowed ih => exact ih.apply allowed

/-- A token belongs to whom the last event about it gave it. -/
theorem owner_eq (history : History events registry) (token : Collection × ℕ) :
    registry.owner token = events.reverse.findSome? (Event.gives token) := by
  induction history with
  | empty => rfl
  | next earlier allowed ih =>
      rw [List.reverse_append, List.reverse_singleton, List.singleton_append,
        List.findSome?_cons, owner_apply, ih]
      cases Event.gives token _ <;> rfl

end History

/-! How tokens change hands. -/

/-- Whom the events leave a token with. -/
def holder (events : List (Event Collection Address Offer)) (token : Collection × ℕ) :
    Option Address :=
  events.reverse.findSome? (Event.gives token)

/-- The last event about the token is its owner's offer. -/
def OfferedBy (events : List (Event Collection Address Offer)) (token : Collection × ℕ)
    (owner : Address) (offer : Offer) : Prop :=
  ∃ before after locked, events = before ++ .list token owner offer locked :: after ∧ locked ∧
    ∀ event ∈ after, event.gives token = none

/-- A token is issued once, and then goes from its owner to the next: it is transferred, or sold
on an offer of its owner. -/
inductive HandsOver (events : List (Event Collection Address Offer)) (token : Collection × ℕ) :
    Event Collection Address Offer → Prop where
  | preminted {terms : Terms Address} (unowned : holder events token = none) :
      HandsOver events token (.deploy token.1 terms)
  | minted {recipient : Address} {paid : Option (Royalty Address)} {time : ℕ}
      (unowned : holder events token = none) :
      HandsOver events token (.mint token recipient paid time)
  | transferred {owner recipient : Address} (owned : holder events token = some owner) :
      HandsOver events token (.transfer token owner recipient)
  | sold {owner buyer : Address} {offer : Offer} (owned : holder events token = some owner)
      (offered : OfferedBy events token owner offer) :
      HandsOver events token (.settle token offer (some buyer))

omit [DecidableEq Address] in
theorem OfferedBy.next {token : Collection × ℕ} {owner : Address} {offer : Offer}
    (offered : OfferedBy events token owner offer) (kept : event.gives token = none) :
    OfferedBy (events ++ [event]) token owner offer := by
  obtain ⟨before, after, locked, split, isLocked, quiet⟩ := offered
  refine ⟨before, after ++ [event], locked, ?_, isLocked, ?_⟩
  · rw [split, List.append_assoc, List.cons_append]
  · intro later member
    rcases List.mem_append.1 member with inAfter | last
    · exact quiet later inAfter
    · rw [List.mem_singleton.1 last, kept]

namespace History

theorem holder_eq (history : History events registry) (token : Collection × ℕ) :
    holder events token = registry.owner token :=
  (history.owner_eq token).symm

/-- An open offer is that of the owner. -/
theorem offeredBy (history : History events registry) {token : Collection × ℕ} {offer : Offer}
    (opened : registry.offer token = some offer) :
    ∃ owner, registry.owner token = some owner ∧ OfferedBy events token owner offer := by
  induction history with
  | empty => cases opened
  | @next events registry event earlier allowed ih =>
      have unchanged (before : registry.offer token = some offer)
          (kept : event.gives token = none) :
          ∃ owner, (registry.apply event).owner token = some owner ∧
            OfferedBy (events ++ [event]) token owner offer := by
        obtain ⟨owner, owned, offered⟩ := ih before
        refine ⟨owner, ?_, offered.next kept⟩
        rw [owner_apply, kept, Option.none_or, owned]
      cases event with
      | deploy collection terms =>
          have owned := earlier.sound.offered token (Option.isSome_of_eq_some opened)
          obtain ⟨known, found, _⟩ := earlier.sound.owned token owned
          apply unchanged opened
          rw [Event.gives, if_neg]
          intro within
          obtain ⟨same, _⟩ := within
          rw [same, allowed.1] at found
          cases found
      | mint minted recipient paid time =>
          have owned := earlier.sound.offered token (Option.isSome_of_eq_some opened)
          obtain ⟨_, _, _, _, _, unowned, _⟩ := allowed
          apply unchanged opened
          rw [Event.gives, if_neg]
          intro same
          rw [same, unowned] at owned
          cases owned
      | transfer moved sender recipient =>
          apply unchanged opened
          rw [Event.gives, if_neg]
          intro same
          rw [← same] at allowed
          have closed := allowed.2
          rw [show registry.offer token = some offer from opened] at closed
          cases closed
      | discount collection sender recipient fee => exact unchanged opened rfl
      | list listed sender offer' locked =>
          by_cases same : token = listed
          · subst same
            rw [offer_list, Function.update_self, Option.some_inj] at opened
            subst opened
            obtain ⟨owned, _, isLocked⟩ := allowed
            exact ⟨sender, owned, events, [], locked, rfl, isLocked, by simp⟩
          · rw [offer_list, Function.update_of_ne same] at opened
            exact unchanged opened rfl
      | settle sold offer' buyer =>
          by_cases same : token = sold
          · subst same
            rw [offer_settle, Function.update_self] at opened
            cases opened
          · rw [offer_settle, Function.update_of_ne same] at opened
            apply unchanged opened
            rw [Event.gives, if_neg same]

theorem handsOver_of_allows (history : History events registry) (allowed : registry.Allows event)
    {token : Collection × ℕ} (given : (event.gives token).isSome) :
    HandsOver events token event := by
  have holder := history.holder_eq token
  cases event with
  | deploy collection terms =>
      simp only [Event.gives] at given
      split at given
      · rename_i within
        obtain ⟨same, _⟩ := within
        subst same
        apply HandsOver.preminted
        rw [holder, ← Option.not_isSome_iff_eq_none]
        intro owned
        obtain ⟨known, found, _⟩ := history.sound.owned token owned
        rw [allowed.1] at found
        cases found
      · cases given
  | mint minted recipient paid time =>
      simp only [Event.gives] at given
      split at given
      · rename_i same
        subst same
        obtain ⟨_, _, _, _, _, unowned, _⟩ := allowed
        exact .minted (holder.trans unowned)
      · cases given
  | transfer moved sender recipient =>
      simp only [Event.gives] at given
      split at given
      · rename_i same
        subst same
        exact .transferred (holder.trans allowed.1)
      · cases given
  | settle sold offer buyer =>
      simp only [Event.gives] at given
      split at given
      · rename_i same
        subst same
        obtain ⟨owner, owned, offered⟩ := history.offeredBy allowed
        obtain ⟨recipient, rfl⟩ := Option.isSome_iff_exists.1 given
        exact .sold (holder.trans owned) offered
      · cases given
  | discount collection sender recipient fee => cases given
  | list listed sender offer locked => cases given

/-- Every event that gives a token an owner hands it over. -/
theorem handsOver (history : History events registry)
    {before after : List (Event Collection Address Offer)}
    (split : events = before ++ event :: after)
    {token : Collection × ℕ} (given : (event.gives token).isSome) :
    HandsOver before token event := by
  induction history generalizing after with
  | empty =>
      have none := congrArg List.length split
      simp at none
  | next earlier allowed ih =>
      rcases List.eq_nil_or_concat after with rfl | ⟨rest, last, rfl⟩
      · obtain ⟨sameBefore, sameEvent⟩ := List.append_inj' split rfl
        injection sameEvent with sameEvent
        subst sameBefore sameEvent
        exact earlier.handsOver_of_allows allowed given
      · rw [List.concat_eq_append, ← List.cons_append, ← List.append_assoc] at split
        exact ih (List.append_inj' split rfl).1

end History

end TokenRegistry

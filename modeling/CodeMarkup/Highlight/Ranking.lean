import CodeMarkup.Highlight.Outcome
import CodeMarkup.Registry

/-! # Ranking outcomes

Of several outcomes for the same code the one of greater relevance comes first. Of outcomes of equal
relevance the one whose language extends more of the others comes first, and else the one that was
there first. -/

namespace CodeMarkup

/-! ### Reordering -/

/-- Brings items to their places in an array, swapping the item at place `i` with the one at its
place until the item at place `i` belongs there; `places` says where the items belong. Nothing if a
place is out of range or the swaps do not suffice. -/
def settle {α : Type} (i : Nat) : Nat → Array α → Array Nat → Option (Array α × Array Nat)
  | 0, _, _ => none
  | swaps + 1, items, places =>
    match places[i]? with
    | none => none
    | some j =>
      if j = i then some (items, places)
      else if h : i < items.size ∧ j < items.size ∧ i < places.size ∧ j < places.size then
        settle i swaps (items.swap i j h.1 h.2.1) (places.swap i j h.2.2.1 h.2.2.2)
      else none

/-- Settles one place after the other. -/
def settleAll {α : Type} (swaps : Nat) :
    List Nat → Array α → Array Nat → Option (Array α × Array Nat)
  | [], items, places => some (items, places)
  | i :: is, items, places =>
    match settle i swaps items places with
    | none => none
    | some (items, places) => settleAll swaps is items places

/-- The place that each item has in an order: item `order[t]` has place `t`. -/
def placesOf (order : List Nat) : Array Nat :=
  order.zipIdx.foldl (fun places (source, target) => places.setIfInBounds source target)
    (Array.replicate order.length 0)

/-- The items in an order, so that item `order[t]` comes to place `t`. Nothing if the order is none
of these items. -/
def reorder? {α : Type} (items : Array α) (order : List Nat) : Option (Array α) :=
  (settleAll (items.size + 1) (List.range items.size) items (placesOf order)).map Prod.fst

/-! ### Ranking -/

variable {ρ : Type} [Engine ρ]

/-- The registered name of the language that a language extends. -/
def Registry.baseOf (r : Registry ρ) (name : String) : Option String :=
  ((r.get? name).bind Language.supersetOf).bind r.canonicalName

/-- How many languages a language extends in a row, each of them with a property; so many at most.
-/
def extensionDepth (r : Registry ρ) (tied : String → Bool) : Nat → Option String → Nat
  | 0, _ => 0
  | _ + 1, none => 0
  | hops + 1, some name =>
    match r.baseOf name with
    | none => 0
    | some base => if tied base then 1 + extensionDepth r tied hops (some base) else 0

/-- How many languages among those of equal relevance the language of an outcome extends. -/
def supersetDepth (r : Registry ρ) (all : List (Outcome ρ)) (o : Outcome ρ) : Nat :=
  let tied := fun name => all.any fun p => p.relevance == o.relevance && p.language == some name
  extensionDepth r tied all.length o.language

/-- What an outcome is ranked by: its relevance and how many languages it extends. -/
abbrev Rank := Nat × Nat

/-- Whether an outcome may come before another one. -/
def Rank.le (a b : Rank) : Bool := b.1 < a.1 || (a.1 == b.1 && b.2 ≤ a.2)

/-- The order of these ranks, equal ones staying in order. -/
def rankOrder (ranks : Array Rank) : List Nat :=
  let rankAt := fun i => (ranks[i]?).getD (0, 0)
  (List.range ranks.size).mergeSort fun a b => Rank.le (rankAt a) (rankAt b)

/-- Outcomes in their order. -/
def rank (r : Registry ρ) (all : List (Outcome ρ)) : List (Outcome ρ) :=
  let ranks := (all.map fun o => (o.relevance, supersetDepth r all o)).toArray
  ((reorder? all.toArray (rankOrder ranks)).getD all.toArray).toList

end CodeMarkup

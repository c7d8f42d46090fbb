import CodeMarkup.Proofs.Language.Faulty
import CodeMarkup.Proofs.Language.Grounded

/-! # The modes that are met

Which modes compiling meets, and inside what, is said here by the grammar alone. What counts of the
mode around a mode is its terminator, if there is a mode around it at all: the root has none, nor has
what follows the root (`Met`). A mode that follows the root and does not depend on the mode around it
is the same mode wherever it is met later on, so it is not met inside of any mode again, and one that
has been met inside a mode before is not met with none around it. So the modes with none around them
are met one after the other (`Followed`), and each of them only adds to what is met
(`Followed.met_of_suffix`).

A mode that is met is `Malformed` if it has something wrong by itself, if what it contains is, or if
its rules are. -/

namespace CodeMarkup

namespace Language

section Places

variable (shelf : Shelf) (alone : List Key)

/-- Whether the mode at a place is one of those that have been met with no mode around them, wherever
it is met. -/
def isAlone (p : Shelf.Place) : Bool :=
  p.2.isNone && alone.contains p.1 && !shelf.dependsAt p

/-- What a mode refers to: its children, inside of it, and what follows it, inside the mode around
it. -/
inductive Refers (m : Mode) (around : Option String) : Shelf.Place → Mode → String → Prop
  | child {c : Child} {p : Shelf.Place} {source : Mode} : c ∈ m.contains.getD [] →
      p ∈ shelf.placesOfChild c → shelf.variant? p.1 p.2 = some source →
      Refers m around p source (boundsIn m around).2.2
  | next {key : Key} {terminator : String} : around = some terminator → m.starts = some key →
      Refers m around (key, none) (shelf.mode key) terminator

/-- Whether a variant of the mode with a key has variants. -/
def HasNested (key : Key) : Prop :=
  ∃ v ∈ (shelf.mode key).variants.getD [], (shelf.mode v).variants.any (!·.isEmpty)

/-- The begin of the mode at a place. -/
def beginAt (p : Shelf.Place) : String :=
  if isAlone shelf alone p then ""
  else ((shelf.variant? p.1 p.2).map fun m => (boundsIn m (some "")).1).getD ""

/-- The begins of the modes that a child stands for. -/
def beginsOf (m : Mode) (around : Option String) : Child → List String
  | .self => [(boundsIn m around).1]
  | .mode key => (shelf.placesOf key).map (beginAt shelf alone)
  | .late slot => (shelf.placesOfChild (.late slot)).map (beginAt shelf alone)

/-- The rules of a mode in order: the begins of its children, its terminator, and what cannot occur
in it. -/
def rulesIn (m : Mode) (around : Option String) : List String :=
  (m.contains.getD []).flatMap (beginsOf shelf alone m around) ++
    (if (boundsIn m around).2.2.isEmpty then [] else [(boundsIn m around).2.2]) ++
    (illegalPattern m.illegal).toList

end Places

section Grammar

variable (g : Grammar) (alone : List Key)

/-- The modes that are met once these have been met with no mode around them, and the terminators of
the modes around them. -/
inductive Met : Mode → Option String → Prop
  | root : Met g.root none
  | alone {key : Key} : key ∈ alone → Met (g.shelf.mode key) none
  | inside {m source : Mode} {around : Option String} {p : Shelf.Place} {terminator : String} :
      Met m around → Refers g.shelf m around p source terminator →
      isAlone g.shelf alone p = false → Met source (some terminator)

/-- What follows the last one of the modes that have been met with no mode around them. -/
def startOf : List Key → Option Key
  | [] => g.root.starts
  | key :: _ => (g.shelf.mode key).starts

/-- The modes besides the root that are met with no mode around them, the last one first: each
follows the one before, and has not been met before. Where it depends on the mode around it, it is
another one inside of each. -/
inductive Followed : List Key → Prop
  | nil : Followed []
  | cons {alone : List Key} {key : Key} : Followed alone → startOf g alone = some key →
      key ∉ alone →
      (∀ m around source terminator, Met g alone m around →
        Refers g.shelf m around (key, none) source terminator →
        g.shelf.dependsAt (key, none) = true) →
      Followed (key :: alone)

variable (ρ : Type) [Engine ρ]

/-- What can be wrong with a mode where it is met. -/
inductive Malformed (m : Mode) (around : Option String) : Prop
  /-- The mode has something wrong by itself. -/
  | fields : Faulty ρ g.caseInsensitive m around → Malformed m around
  /-- A slot among its children has not been filled. -/
  | slot {slot : Nat} : .late slot ∈ m.contains.getD [] → g.shelf.inSlot? slot = none →
      Malformed m around
  /-- A variant of a child has variants. -/
  | nested {c : Child} {key : Key} : c ∈ m.contains.getD [] → keyOf g.shelf c = some key →
      HasNested g.shelf key → Malformed m around
  /-- A rule is no pattern. -/
  | rule {source : String} : source ∈ rulesIn g.shelf alone m around → Engine.Invalid ρ source →
      Malformed m around
  /-- The rules are no pattern together. -/
  | joined : rulesIn g.shelf alone m around ≠ [] →
      Engine.Invalid ρ (Pattern.flagged (Pattern.join (rulesIn g.shelf alone m around) "|")
        g.caseInsensitive) →
      Malformed m around

/-- Whether some mode that is met is malformed. -/
def Flawed : Prop :=
  ∃ alone m around, Followed g alone ∧ Met g alone m around ∧ Malformed g alone ρ m around

end Grammar

variable {g : Grammar} {alone : List Key} {key : Key} {m : Mode} {around : Option String}

/-! ### Meeting more modes -/

/-- What was met before the last mode is the mode that it was. -/
theorem Followed.isAlone_cons (h : Followed g (key :: alone)) (hm : Met g alone m around)
    {p : Shelf.Place} {source : Mode} {terminator : String}
    (hr : Refers g.shelf m around p source terminator) :
    isAlone g.shelf (key :: alone) p = isAlone g.shelf alone p := by
  obtain ⟨k, _ | n⟩ := p
  · cases h with
    | cons _ _ _ hnew =>
      unfold isAlone
      by_cases hk : k = key
      · subst hk
        rw [hnew _ _ _ _ hm hr, Bool.not_true, Bool.and_false, Bool.and_false]
      · rw [List.contains_cons, beq_eq_false_iff_ne.mpr hk, Bool.false_or]
  · rfl

theorem Followed.met_cons (h : Followed g (key :: alone)) (hm : Met g alone m around) :
    Met g (key :: alone) m around := by
  induction hm with
  | root => exact .root
  | alone hkey => exact .alone (List.mem_cons_of_mem _ hkey)
  | inside hm hr hp ih => exact .inside ih hr ((h.isAlone_cons hm hr).trans hp)

theorem Followed.beginAt_cons (h : Followed g (key :: alone)) (hm : Met g alone m around)
    {c : Child} (hc : c ∈ m.contains.getD []) {p : Shelf.Place} (hp : p ∈ g.shelf.placesOfChild c) :
    beginAt g.shelf (key :: alone) p = beginAt g.shelf alone p := by
  unfold beginAt
  obtain ⟨k, _ | n⟩ := p
  · rw [h.isAlone_cons hm (.child hc hp rfl)]
  · rfl

theorem Followed.rulesIn_cons (h : Followed g (key :: alone)) (hm : Met g alone m around) :
    rulesIn g.shelf (key :: alone) m around = rulesIn g.shelf alone m around := by
  have hbegins : (m.contains.getD []).flatMap (beginsOf g.shelf (key :: alone) m around) =
      (m.contains.getD []).flatMap (beginsOf g.shelf alone m around) := by
    refine List.flatMap_congr fun c hc => ?_
    cases c with
    | self => rfl
    | mode k => exact List.map_congr_left fun p hp => h.beginAt_cons hm hc hp
    | late slot => exact List.map_congr_left fun p hp => h.beginAt_cons hm hc hp
  unfold rulesIn
  rw [hbegins]

theorem Followed.malformed_cons {ρ : Type} [Engine ρ] (h : Followed g (key :: alone))
    (hm : Met g alone m around) (hbad : Malformed g alone ρ m around) :
    Malformed g (key :: alone) ρ m around := by
  have hrules := h.rulesIn_cons hm
  cases hbad with
  | fields hf => exact .fields hf
  | slot hs hn => exact .slot hs hn
  | nested hc hk hn => exact .nested hc hk hn
  | rule hmem hinvalid => exact .rule (hrules ▸ hmem) hinvalid
  | joined hne hinvalid => exact .joined (hrules ▸ hne) (hrules ▸ hinvalid)

/-- **Meeting further modes with none around them leaves alone what was met before**, and what was
malformed of it. -/
theorem Followed.met_of_suffix {more : List Key} (h : Followed g more) (hs : alone <:+ more)
    (hm : Met g alone m around) : Met g more m around ∧
      ∀ {ρ : Type} [Engine ρ], Malformed g alone ρ m around → Malformed g more ρ m around := by
  induction h with
  | nil =>
    obtain rfl := List.suffix_nil.mp hs
    exact ⟨hm, fun hbad => hbad⟩
  | cons hmore hstart hkey hnew ih =>
    rcases List.suffix_cons_iff.mp hs with rfl | hs
    · exact ⟨hm, fun hbad => hbad⟩
    · have h := Followed.cons hmore hstart hkey hnew
      obtain ⟨hmet, hbad⟩ := ih hs
      exact ⟨h.met_cons hmet, fun hb => h.malformed_cons hmet (hbad hb)⟩

/-! ### The order -/

theorem Followed.of_suffix {more : List Key} (h : Followed g more) (hs : alone <:+ more) :
    Followed g alone := by
  induction h with
  | nil =>
    obtain rfl := List.suffix_nil.mp hs
    exact .nil
  | cons hmore hstart hkey hnew ih =>
    rcases List.suffix_cons_iff.mp hs with rfl | hs
    · exact .cons hmore hstart hkey hnew
    · exact ih hs

/-- **There is one order in which modes with none around them are met**: what has been met at some
time is the first part of all. -/
theorem Followed.suffix_of_last {all : List Key} (h : Followed g alone) (hall : Followed g all)
    (hlast : ∀ key, ¬ Followed g (key :: all)) : alone <:+ all := by
  induction h with
  | nil => exact List.nil_suffix
  | @cons alone key halone hstart hkey hnew ih =>
    obtain ⟨later, rfl⟩ := ih
    rcases List.eq_nil_or_concat later with rfl | ⟨later, key', rfl⟩
    · exact absurd (.cons halone hstart hkey hnew) (hlast key)
    · have hs : (key' :: alone) <:+ later.concat key' ++ alone := by
        rw [List.concat_eq_append, List.append_assoc]
        exact List.suffix_append later _
      have hnext := hall.of_suffix hs
      cases hnext with
      | cons _ hstart' _ _ =>
        obtain rfl := Option.some.inj (hstart.symm.trans hstart')
        exact hs

end Language

end CodeMarkup

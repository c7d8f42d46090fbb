import CodeMarkup.Proofs.Regex.Joined
import CodeMarkup.Proofs.Regex.Ways
import Mathlib.Algebra.GroupWithZero.Nat

/-! # The numbers of joined groups

Joining moves the references of a pattern on by the number of groups that it counts in the patterns
before it. They are the right numbers just if as many groups are there for the engine
(`Pattern.shifted_right_iff`). Of plain patterns the joining counts what the engine does; of others
it need not: a bracket that starts with a closing one is taken to end there, and what is behind is
taken for a group. -/

namespace CodeMarkup

open Pattern (moved Plain groupsIn digitsValue numberLimit)
open Pattern.Part (isOther)

namespace Pattern

/-! ### Pieces -/

/-- The number of groups that joining counts in a source. -/
def counted (source : String) : Nat := groupsIn source.toList

/-- A source in a group of its own, its references moved on. -/
def piece (offset : Nat) (source : String) : String := "(" ++ shifted offset source ++ ")"

/-- A source is moved on by the groups counted before it, those of the sources included. -/
theorem getElem?_wrapped : ∀ (sources : List String) (before i : Nat),
    (wrapped before sources)[i]? =
      sources[i]?.map (piece (before + i + 1 + ((sources.take i).map counted).sum))
  | [], before, i => rfl
  | source :: sources, before, 0 => rfl
  | source :: sources, before, i + 1 => by
    have ih := getElem?_wrapped sources (before + 1 + counted source) i
    rw [wrapped, List.getElem?_cons_succ, List.getElem?_cons_succ, List.take_succ_cons,
      List.map_cons, List.sum_cons]
    have hn : before + 1 + counted source + i + 1 + ((sources.take i).map counted).sum =
        before + (i + 1) + 1 + (counted source + ((sources.take i).map counted).sum) := by omega
    rw [← hn]
    exact ih

/-! ### References -/

/-- Whether a part is a reference that is moved on. -/
def Part.isMoved : Part → Bool
  | .reference digits => digitsValue digits < numberLimit
  | _ => false

/-- Whether a pattern has such a reference. -/
def refers (cs : List Char) : Bool := (Part.read cs).any Part.isMoved

theorem moved_cons (offset : Nat) (c : Char) (cs : List Char) : moved offset (c :: cs) =
    (Part.next c cs).1.shifted offset ++ moved offset (Part.next c cs).2 := by
  rw [moved, Part.read_cons, List.flatMap_cons]
  rfl

/-- The digits at the front of a moved text that starts with a number. -/
theorem takeWhile_toString (offset n : Nat) (cs : List Char) :
    ((toString n).toList ++ moved offset (cs.dropWhile Char.isDigit)).takeWhile Char.isDigit =
      (toString n).toList := by
  have hstop : (moved offset (cs.dropWhile Char.isDigit)).takeWhile Char.isDigit = [] := by
    have hd := List.head?_dropWhile_not Char.isDigit cs
    cases hr : cs.dropWhile Char.isDigit with
    | nil => rfl
    | cons c ds =>
      obtain ⟨es, he⟩ := exists_moved_cons offset c ds
      rw [hr] at hd
      rw [he, List.takeWhile_cons_of_neg (by simpa using hd)]
  rw [List.takeWhile_append_of_pos fun c hc => Regex.Placement.isDigit_of_mem_toString hc, hstop,
    List.append_nil]

theorem Part.next_reference {c : Char} {cs digits : List Char}
    (h : (Part.next c cs).1 = .reference digits) :
    ∃ ds : List Char, (Part.next c cs).2 = ds.dropWhile Char.isDigit := by
  unfold Part.next at h ⊢
  split at h
  · split at h <;> cases h
  · cases h
  · cases h
  · next d ds =>
    split at h
    · next hd =>
      rw [if_pos hd]
      exact ⟨ds, rfl⟩
    · cases h
  · cases h

theorem Part.shifted_eq_text {p : Part} (h : p.isMoved = false) (offset : Nat) :
    p.shifted offset = p.text := by
  cases p with
  | reference digits =>
    have h : ¬ digitsValue digits < numberLimit := by simpa [isMoved] using h
    rw [Part.shifted, if_neg h]
    rfl
  | _ => rfl

/-- A reference tells how far a text has been moved on. -/
theorem eq_of_moved_eq {offset offset' : Nat} : ∀ (cs : List Char), refers cs →
    moved offset cs = moved offset' cs → offset = offset'
  | [], h, _ => by cases h
  | c :: cs, h, he => by
    have hl : (Part.next c cs).2.length ≤ cs.length := Nat.le_of_lt_succ (Part.length_next c cs)
    rw [moved_cons, moved_cons] at he
    cases hm : (Part.next c cs).1.isMoved with
    | false =>
      rw [Part.shifted_eq_text hm, Part.shifted_eq_text hm] at he
      rw [refers, Part.read_cons, List.any_cons, hm, Bool.false_or] at h
      exact eq_of_moved_eq _ h (List.append_cancel_left he)
    | true =>
      obtain ⟨digits, hp, hd⟩ : ∃ digits, (Part.next c cs).1 = .reference digits ∧
          digitsValue digits < numberLimit := by
        cases hp : (Part.next c cs).1 <;> rw [hp] at hm <;> simp_all [Part.isMoved]
      obtain ⟨ds, hds⟩ := Part.next_reference hp
      rw [hp, hds, Part.shifted, Part.shifted, if_pos hd, if_pos hd, List.cons_append,
        List.cons_append] at he
      have hdigits := congrArg (List.takeWhile Char.isDigit) (List.cons.inj he).2
      rw [takeWhile_toString, takeWhile_toString] at hdigits
      have hvalue := congrArg digitsValue hdigits
      rw [Regex.Placement.digitsValue_toString, Regex.Placement.digitsValue_toString] at hvalue
      exact Nat.add_left_cancel hvalue
termination_by cs => cs.length

/-- A piece has the right numbers just if it has no reference, or its references are moved on by the
right number. -/
theorem piece_eq_iff {source : String} {offset offset' : Nat} :
    piece offset source = piece offset' source ↔
      (refers source.toList → offset = offset') := by
  constructor
  · intro h hr
    refine eq_of_moved_eq source.toList hr ?_
    have hl := congrArg String.toList h
    simpa [piece, shifted, moved] using hl
  · intro h
    cases hr : refers source.toList with
    | true => rw [h hr]
    | false =>
      have hkeep : ∀ o, shifted o source = String.ofList source.toList := by
        intro o
        refine congrArg String.ofList ?_
        rw [List.flatMap_congr fun p hp => Part.shifted_eq_text (by
          simpa [hp] using (List.any_eq_false.mp hr) p hp) o, Part.text_read]
      rw [piece, piece, hkeep, hkeep]

end Pattern

/-! ### What the engine counts -/

section Engine

open Regex

variable {ρ : Type} [Engine ρ]

/-- Sources that an engine accepts one by one. -/
def AcceptedAlone (sources : List String) (res : List ρ) : Prop :=
  List.Forall₂ (fun source re => Engine.compile source = .ok re) sources res

/-- Joining counts the groups of a plain source as the engine does. -/
theorem counted_eq_groupCount (hρ : ReadsPatterns ρ) {source : String} {re : ρ}
    (h : Engine.compile source = .ok re) (hp : Plain true source.toList) :
    Pattern.counted source = Engine.groupCount re := by
  obtain ⟨p, hread, hg⟩ := hρ h
  rw [hg]
  exact ((readsAs_of_read hread).groups_eq hp rfl).symm

/-- Joined plain patterns are read to the alternatives of their groups. -/
theorem read_join_alone {sources : List String} (hne : sources ≠ [])
    (hp : ∀ source ∈ sources, Plain true source.toList) {qs : List Parsed}
    (hqs : List.Forall₂ (fun source q => Parsed.read source = .ok q) sources qs) {p : Parsed}
    (h : Parsed.read (Pattern.join sources "|") = .ok p) :
    p.expr = eitherOf (groupsFrom 0 qs) ∧ p.groups = groupTotal qs := by
  have halone : ReadAlone true {} (sources.map String.toList) qs :=
    List.forall₂_map_left_iff.mpr <| ((List.forall₂_and_left _ _).mpr ⟨hp, hqs⟩).imp fun _ _ hq =>
      ⟨hq.1, readsAs_of_read hq.2⟩
  refine of_readsAs_joined rfl halone (by simpa using hne) ?_
  rw [← toList_join hne]
  exact readsAs_of_read h

/-- **Joining gives references the right numbers just if it counts the groups before them right.**
It does so for plain patterns, and when those are joined each of them means what it means alone, its
groups being those behind all groups of the earlier ones and the groups that hold them. -/
theorem join_renumbers (hρ : ReadsPatterns ρ) {sources : List String} {res : List ρ}
    (h : AcceptedAlone sources res) :
    (∀ (i : Nat) (source : String), sources[i]? = some source →
      ((Pattern.wrapped 0 sources)[i]? = some
          (Pattern.piece (((res.take i).map Engine.groupCount).sum + (i + 1)) source) ↔
        (Pattern.refers source.toList → ((sources.take i).map Pattern.counted).sum =
          ((res.take i).map Engine.groupCount).sum))) ∧
    ((∀ source ∈ sources, Plain true source.toList) →
      sources.map Pattern.counted = res.map Engine.groupCount ∧
      ∀ p, sources ≠ [] → Parsed.read (Pattern.join sources "|") = .ok p →
        ∃ qs, List.Forall₂ (fun source q => Parsed.read source = .ok q) sources qs ∧
          p.expr = eitherOf (groupsFrom 0 qs) ∧ p.groups = groupTotal qs) := by
  refine ⟨fun i source hi => ?_, fun hp => ⟨?_, fun p hne hread => ?_⟩⟩
  · rw [Pattern.getElem?_wrapped, hi, Option.map_some, Option.some.injEq, Pattern.piece_eq_iff]
    refine imp_congr_right fun _ => ⟨fun he => ?_, fun he => ?_⟩ <;> omega
  · induction h with
    | nil => rfl
    | cons hre _ ih =>
      rw [List.map_cons, List.map_cons, counted_eq_groupCount hρ hre (hp _ List.mem_cons_self),
        ih fun source hs => hp source (List.mem_cons_of_mem _ hs)]
  · obtain ⟨qs, hqs⟩ : ∃ qs, List.Forall₂ (fun source q => Parsed.read source = .ok q)
        sources qs := by
      clear hp hne hread
      induction h with
      | nil => exact ⟨[], .nil⟩
      | cons hre _ ih =>
        obtain ⟨q, hq, -⟩ := hρ hre
        obtain ⟨qs, hqs⟩ := ih
        exact ⟨q :: qs, .cons hq hqs⟩
    exact ⟨qs, hqs, read_join_alone hne hp hqs hread⟩

end Engine

/-- The only group of the second pattern is the fifth of both. -/
theorem join_renumbers_second : (Pattern.wrapped 0 ["(a)(b)", "(x)\\1"])[1]? = some "((x)\\5)" := by
  obtain ⟨first, hfirst, hg⟩ := Regex.Tried.exists_compile (n := 2)
    (show (Regex.Parsed.read "(a)(b)").map _ = .ok 2 by decide +kernel)
  obtain ⟨second, hsecond, -⟩ := Regex.Tried.exists_compile (n := 1)
    (show (Regex.Parsed.read "(x)\\1").map _ = .ok 1 by decide +kernel)
  have h := ((join_renumbers Regex.Tried.leftmostFirst.readsPatterns
    (.cons hfirst (.cons hsecond .nil))).1 1 "(x)\\1" rfl).mpr fun _ => ?_
  · rw [h]
    simp only [List.take_succ_cons, List.take_zero, List.map_cons, List.map_nil, hg]
    decide +kernel
  · simp only [List.take_succ_cons, List.take_zero, List.map_cons, List.map_nil, hg]
    decide +kernel

/-- A bracket that starts with a closing one does not end there, but joining takes it to: it counts
a group where the engine has none, and the reference of the next pattern is moved on too far. -/
theorem join_misnumbers_bracket : ∃ first second : Regex.Tried,
    AcceptedAlone ["[](]", "(x)\\1"] [first, second] ∧ Engine.groupCount first = 0 ∧
      Pattern.piece (Engine.groupCount first + 2) "(x)\\1" = "((x)\\3)" ∧
      (Pattern.wrapped 0 ["[](]", "(x)\\1"])[1]? = some "((x)\\4)" := by
  obtain ⟨first, hfirst, hg⟩ := Regex.Tried.exists_compile (n := 0)
    (show (Regex.Parsed.read "[](]").map _ = .ok 0 by decide +kernel)
  obtain ⟨second, hsecond, -⟩ := Regex.Tried.exists_compile (n := 1)
    (show (Regex.Parsed.read "(x)\\1").map _ = .ok 1 by decide +kernel)
  refine ⟨first, second, .cons hfirst (.cons hsecond .nil), hg, ?_, by decide +kernel⟩
  rw [hg]
  decide +kernel

end CodeMarkup

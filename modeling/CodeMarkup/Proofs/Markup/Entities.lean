import CodeMarkup.Markup.Escape
import Mathlib.Tactic.FinCases

/-! # Reading entities

What has been escaped can be read again: once from left to right (`readEntities_escape`), and also
one kind of entity after the other, as long as the ampersand comes last (`unescape_escape`). Read
before the others it would make new entities out of text that looks like one. So different texts are
escaped differently (`escape_injective`), texts with entities in them included. -/

namespace CodeMarkup.Markup

/-! ### Escaped text -/

/-- The characters that are written as entities, in the order in which their entities may be read
one kind after the other. -/
def special : List Char := ['<', '>', '"', '\'', '&']

/-- An entity has one ampersand, at its front. -/
theorem exists_entity {x : Char} (hx : x ∈ special) :
    ∃ name, escapeChar x = '&' :: name ∧ '&' ∉ name := by
  unfold special at hx
  fin_cases hx <;> exact ⟨_, rfl, by decide⟩

theorem escapeChar_of_not_mem {x : Char} (hx : x ∉ special) : escapeChar x = [x] := by
  simp only [special, List.mem_cons, List.not_mem_nil, or_false, not_or] at hx
  unfold escapeChar
  split <;> simp_all

/-- No entity is the front of another one. -/
theorem not_entity_of_ne {x y : Char} (hx : x ∈ special) (hy : y ∈ special) (h : x ≠ y)
    (rest : List Char) : (escapeChar x).isPrefixOf (escapeChar y ++ rest) = false := by
  unfold special at hx hy
  fin_cases hx <;> fin_cases hy <;> first | exact absurd rfl h | rfl

/-- Of the characters that mean something to markup only the ampersand is left in escaped text. -/
theorem not_mem_escapeChar (x : Char) : ∀ c ∈ escapeChar x, c ∉ ['<', '>', '"', '\''] := by
  by_cases hx : x ∈ special
  · unfold special at hx
    fin_cases hx <;> simp [escapeChar]
  · rw [escapeChar_of_not_mem hx]
    intro c hc hmem
    rw [List.mem_singleton.mp hc] at hmem
    exact hx (List.mem_append_left ['&'] hmem)

theorem not_mem_escape (s : String) : ∀ c ∈ (escape s).toList, c ∉ ['<', '>', '"', '\''] := by
  intro c hc
  rw [escape, String.toList_ofList] at hc
  obtain ⟨x, -, hx⟩ := List.mem_flatMap.mp hc
  exact not_mem_escapeChar x c hx

/-! ### From left to right -/

/-- A text in which every entity has been read as the character that it stands for. -/
def readEntities : List Char → List Char
  | '&' :: 'l' :: 't' :: ';' :: cs => '<' :: readEntities cs
  | '&' :: 'g' :: 't' :: ';' :: cs => '>' :: readEntities cs
  | '&' :: 'q' :: 'u' :: 'o' :: 't' :: ';' :: cs => '"' :: readEntities cs
  | '&' :: '#' :: 'x' :: '2' :: '7' :: ';' :: cs => '\'' :: readEntities cs
  | '&' :: 'a' :: 'm' :: 'p' :: ';' :: cs => '&' :: readEntities cs
  | c :: cs => c :: readEntities cs
  | [] => []

theorem readEntities_cons {c : Char} (hc : c ≠ '&') (cs : List Char) :
    readEntities (c :: cs) = c :: readEntities cs := by
  conv_lhs => unfold readEntities
  split <;> simp_all

theorem readEntities_escapeChar (c : Char) (cs : List Char) :
    readEntities (escapeChar c ++ cs) = c :: readEntities cs := by
  by_cases hc : c ∈ special
  · unfold special at hc
    fin_cases hc <;> rfl
  · have hne : c ≠ '&' := fun h => hc (h ▸ by decide)
    rw [escapeChar_of_not_mem hc, List.singleton_append, readEntities_cons hne]

/-- **Escaped text is read back**, whatever is in it. -/
theorem readEntities_escape (s : String) : readEntities (escape s).toList = s.toList := by
  rw [escape, String.toList_ofList]
  induction s.toList with
  | nil => rfl
  | cons c cs ih => rw [List.flatMap_cons, readEntities_escapeChar, ih]

/-- Different texts are escaped differently. -/
theorem escape_injective : Function.Injective escape := fun s t h => by
  rw [← String.toList_inj, ← readEntities_escape s, h, readEntities_escape]

/-! ### One kind after the other -/

/-- A text in which every occurrence of a part, from left to right, has been replaced. The number is
that of the characters in front that belong to an occurrence replaced already. -/
def replaceFrom (part new : List Char) : Nat → List Char → List Char
  | _, [] => []
  | skip + 1, _ :: cs => replaceFrom part new skip cs
  | 0, c :: cs =>
    if part.isPrefixOf (c :: cs) then new ++ replaceFrom part new (part.length - 1) cs
    else c :: replaceFrom part new 0 cs

/-- A text in which the entity of a character has been replaced by the character. -/
def replaceEntity (cs : List Char) (x : Char) : List Char := replaceFrom (escapeChar x) [x] 0 cs

/-- A text in which the entities have been replaced, one kind after the other. -/
def unescape (cs : List Char) : List Char := special.foldl replaceEntity cs

theorem replaceFrom_skip (part new : List Char) : ∀ skipped cs : List Char,
    replaceFrom part new skipped.length (skipped ++ cs) = replaceFrom part new 0 cs
  | [], _ => rfl
  | _ :: skipped, cs => replaceFrom_skip part new skipped cs

/-- Where a part cannot start nothing is replaced. -/
theorem replaceFrom_of_not_mem {d : Char} (part new : List Char) : ∀ {front : List Char},
    d ∉ front → ∀ cs, replaceFrom (d :: part) new 0 (front ++ cs) =
      front ++ replaceFrom (d :: part) new 0 cs
  | [], _, _ => rfl
  | c :: front, h, cs => by
    obtain ⟨hc, hfront⟩ := not_or.mp (fun hm => h (List.mem_cons.mpr hm))
    have hprefix : (d :: part).isPrefixOf (c :: (front ++ cs)) = false := by
      rw [List.isPrefixOf, beq_eq_false_iff_ne.mpr hc, Bool.false_and]
    rw [List.cons_append, replaceFrom, hprefix, if_neg Bool.false_ne_true,
      replaceFrom_of_not_mem part new hfront, List.cons_append]

/-- The character itself takes the place of its entity. -/
theorem replaceEntity_self {x : Char} (hx : x ∈ special) (cs : List Char) :
    replaceEntity (escapeChar x ++ cs) x = x :: replaceEntity cs x := by
  obtain ⟨name, hname, -⟩ := exists_entity hx
  have hprefix : (escapeChar x).isPrefixOf (escapeChar x ++ cs) = true :=
    List.isPrefixOf_iff_prefix.mpr (List.prefix_append _ _)
  unfold replaceEntity
  rw [hname] at hprefix ⊢
  rw [List.cons_append] at hprefix ⊢
  rw [replaceFrom, if_pos hprefix, List.length_cons, Nat.add_sub_cancel, replaceFrom_skip]
  rfl

/-- Other entities stay. -/
theorem replaceEntity_other {x y : Char} (hx : x ∈ special) (hy : y ∈ special) (h : x ≠ y)
    (cs : List Char) :
    replaceEntity (escapeChar y ++ cs) x = escapeChar y ++ replaceEntity cs x := by
  have hprefix := not_entity_of_ne hx hy h cs
  obtain ⟨name, hname, hfree⟩ := exists_entity hy
  obtain ⟨name', hname', -⟩ := exists_entity hx
  unfold replaceEntity
  rw [hname, hname', List.cons_append] at hprefix ⊢
  rw [replaceFrom, hprefix, if_neg Bool.false_ne_true, replaceFrom_of_not_mem _ _ hfree,
    List.cons_append]

/-- What is no ampersand starts no entity. -/
theorem replaceEntity_cons {x c : Char} (hx : x ∈ special) (hc : c ≠ '&') (cs : List Char) :
    replaceEntity (c :: cs) x = c :: replaceEntity cs x := by
  obtain ⟨name, hname, -⟩ := exists_entity hx
  have hfree : '&' ∉ [c] := fun h => hc (List.mem_singleton.mp h).symm
  unfold replaceEntity
  rw [hname]
  exact replaceFrom_of_not_mem name [x] hfree cs

/-- A character as it stands where only some characters are written as entities. -/
def escapeSome (xs : List Char) (c : Char) : List Char := if c ∈ xs then escapeChar c else [c]

/-- Where the entities of some characters are left, the ampersand among them, replacing those of one
character leaves those of the others. -/
theorem replaceEntity_escapeSome (x : Char) (xs : List Char) (hxs : ∀ y ∈ x :: xs, y ∈ special)
    (hx : x ∉ xs) (hamp : '&' ∈ x :: xs) (cs : List Char) :
    replaceEntity (cs.flatMap (escapeSome (x :: xs))) x = cs.flatMap (escapeSome xs) := by
  have hxspecial := hxs x List.mem_cons_self
  induction cs with
  | nil => rfl
  | cons c cs ih =>
    rw [List.flatMap_cons, List.flatMap_cons]
    unfold escapeSome at ih ⊢
    by_cases hc : c = x
    · subst hc
      rw [if_pos List.mem_cons_self, if_neg hx, replaceEntity_self hxspecial, ih]
      rfl
    · by_cases hmem : c ∈ xs
      · have hcs := List.mem_cons_of_mem x hmem
        rw [if_pos hcs, if_pos hmem, replaceEntity_other hxspecial (hxs c hcs) (Ne.symm hc), ih]
      · have hcs : c ∉ x :: xs := fun h => (List.mem_cons.mp h).elim hc hmem
        have hne : c ≠ '&' := fun h => hcs (h ▸ hamp)
        rw [if_neg hcs, if_neg hmem, List.singleton_append, replaceEntity_cons hxspecial hne, ih]
        rfl

theorem escapeSome_special : escapeSome special = escapeChar := funext fun c => by
  unfold escapeSome
  split
  · rfl
  · next hc => exact (escapeChar_of_not_mem hc).symm

/-- **Escaped text is what it was before when its entities are replaced one kind after the other**,
the ampersand last. -/
theorem unescape_escape (s : String) : unescape (escape s).toList = s.toList := by
  have hstep := fun x xs hxs hx hamp => replaceEntity_escapeSome x xs hxs hx hamp s.toList
  rw [escape, String.toList_ofList, ← escapeSome_special]
  unfold unescape special
  simp only [List.foldl_cons, List.foldl_nil]
  rw [hstep '<' ['>', '"', '\'', '&'] (by simp [special]) (by decide) (by decide),
    hstep '>' ['"', '\'', '&'] (by simp [special]) (by decide) (by decide),
    hstep '"' ['\'', '&'] (by simp [special]) (by decide) (by decide),
    hstep '\'' ['&'] (by simp [special]) (by decide) (by decide),
    hstep '&' [] (by simp [special]) (by decide) (by decide)]
  exact List.flatMap_singleton' s.toList

end CodeMarkup.Markup

import CodeMarkup.Language.Matcher
import CodeMarkup.Proofs.Regex.Joined
import CodeMarkup.Proofs.Regex.Placed

/-! # Looking for rules one by one

The naive way to look for rules goes through the places of a text and at each of them through the
rules, every rule's pattern being compiled alone (`Rule.scan?`). A choice searches once for the
joined pattern instead and tells from the groups that took part which rule has matched; with an
engine that takes the first alternative it can, and plain patterns, it finds the same
(`Choice.search_eq_scan`). -/

namespace CodeMarkup

open Regex
open Pattern (Plain)
open Text (Cursor Place byteSize)

/-! ### One rule after the other -/

namespace Rule

variable (ρ : Type) [Engine ρ] (foldCase : Bool) (text : List Char)

/-- What the pattern of a rule, compiled alone, matches at a byte offset. -/
def matchAt? (offset position : Nat) (r : Rule) : Option Found :=
  match (Engine.compile (Pattern.flagged r.source foldCase) : Except Fault ρ) with
  | .error _ => none
  | .ok re =>
    match Engine.search re text offset with
    | .ok (some c) =>
      if (c.get? 0).any (·.start == offset) then
        some ⟨offset, (List.range (r.groups + 1)).map (Choice.groupText? text c), r.kind, position⟩
      else none
    | _ => none

/-- What the first of the rules that match at a byte offset matches there. -/
def firstAt? (offset : Nat) : Nat → List Rule → Option Found
  | _, [] => none
  | position, r :: rs =>
    match r.matchAt? ρ foldCase text offset position with
    | some found => some found
    | none => firstAt? offset (position + 1) rs

/-- What the rules match at the first of some byte offsets where any of them matches. -/
def scan? (first : Nat) (rules : List Rule) (offsets : List Nat) : Option Found :=
  offsets.findSome? fun offset => firstAt? ρ foldCase text offset first rules

/-- A rule whose pattern is accepted, alone and with the flags of the grammar, and plain. -/
structure Accepted (r : Rule) : Prop where
  checked : Matcher.check ρ r.kind r.source = .ok r
  compiled : ∃ re : ρ, Engine.compile (Pattern.flagged r.source foldCase) = .ok re
  plain : Plain false r.source.toList

end Rule

/-- The byte offsets between the characters of a text that starts at one. -/
def placesFrom : Nat → List Char → List Nat
  | n, [] => [n]
  | n, c :: cs => n :: placesFrom (n + c.utf8Size) cs

/-! ### What is captured -/

theorem Regex.Captures.get?_ofMarks (groups : Nat) (marks : Marks) (g : Nat) :
    (Captures.ofMarks groups marks).get? g =
      if g ≤ groups then (marks.group? g).map fun (start, stop) => ⟨start.offset, stop.offset⟩
      else none := by
  unfold Captures.get? Captures.ofMarks
  by_cases hg : g ≤ groups
  · rw [if_pos hg]
    simp [List.getElem?_range (Nat.lt_succ_of_le hg)]
  · rw [if_neg hg]
    have hn : (List.range (groups + 1))[g]? = none :=
      List.getElem?_eq_none (by rw [List.length_range]; omega)
    simp [hn]

/-- The captures of a group among others, from its first group on, are those of the pattern
alone. -/
theorem Regex.Decoded.groupText?_eq {here : Cursor} {w total groups : Nat} {m m' : Marks}
    (h : Decoded here w m m') (ht : w + groups ≤ total) {text : List Char} {k : Nat}
    (hk : k ≤ groups) : Choice.groupText? text (Captures.ofMarks total m') (w + k) =
      Choice.groupText? text (Captures.ofMarks groups m) k := by
  unfold Choice.groupText?
  rw [Captures.get?_ofMarks, Captures.get?_ofMarks, if_pos (by omega), if_pos hk, h.groups]

/-! ### At one place -/

theorem ways_eitherOf (letters : Letters) (start : Nat) (es : List Expr) (a : Arrival) :
    Expr.ways letters start (eitherOf es) a = Expr.waysOfAny letters start es a := by
  fun_cases eitherOf es with
  | case1 e => rw [Expr.waysOfAny, Expr.waysOfAny, List.append_nil]
  | case2 es _ => rw [Expr.ways]

section Place

variable (ρ : Type) [Engine ρ] (foldCase : Bool) (letters : Letters) (text : List Char)
  (here : Cursor)

/-- A rule with what its pattern is read to: alone it matches at the place as that does. -/
structure Reading (r : Rule) (q : Parsed) : Prop where
  groups : r.groups = q.groups
  steady : q.expr.isSteady
  matchAt? : ∀ position, r.matchAt? ρ foldCase text here.offset position =
    (q.matchAt? letters here.offset here).map fun m =>
      ⟨here.offset, (List.range (r.groups + 1)).map
        (Choice.groupText? text (Captures.ofMarks q.groups m)), r.kind, position⟩

variable {ρ foldCase letters text here}

variable (ρ foldCase text here) in
/-- Marks that tell which rule is the first that matches, the groups of the rules coming after the
first `before` ones. -/
structure TellsFirst (total before position : Nat) (rs : List Rule) (m : Marks) : Prop where
  unmarked : ∀ v, 0 < v → v ≤ before → m.group? v = none
  whole : ∃ stop, m.group? 0 = some (⟨here, 0⟩, ⟨stop, 0⟩)
  first : ∃ r g at', Choice.participant? (Captures.ofMarks total m) (before + 1) position rs =
      some (r, g, at') ∧
    (Captures.ofMarks total m).get? g = (Captures.ofMarks total m).get? 0 ∧
    Rule.firstAt? ρ foldCase text here.offset position rs = some ⟨here.offset,
      (List.range (r.groups + 1)).map fun k =>
        Choice.groupText? text (Captures.ofMarks total m) (g + k), r.kind, at'⟩

section TellsFirst

variable {r : Rule} {q : Parsed} {rs : List Rule} {total before position : Nat} {m m' : Marks}

/-- Where the first rule matches, its group takes part. -/
theorem Reading.tells (hq : Reading ρ foldCase letters text here r q)
    (hm : q.matchAt? letters here.offset here = some m) (hd : Decoded here (before + 1) m m')
    (ht : before + 1 + q.groups ≤ total) :
    TellsFirst ρ foldCase text here total before position (r :: rs) m' := by
  obtain ⟨stop, hwhole⟩ := hd.alone
  have hpart : ((Captures.ofMarks total m').get? (before + 1)).isSome := by
    rw [Captures.get?_ofMarks, if_pos (by omega), ← Nat.add_zero (before + 1), hd.groups, hwhole]
    rfl
  refine ⟨fun v hv hvb => hd.before v hv (by omega), ⟨stop, hd.whole.trans hwhole⟩,
    r, before + 1, position, ?_, ?_, ?_⟩
  · rw [Choice.participant?, if_pos hpart]
  · rw [Captures.get?_ofMarks, Captures.get?_ofMarks, if_pos (by omega), if_pos (Nat.zero_le _),
      hd.whole, ← hd.groups 0, Nat.add_zero]
  · rw [Rule.firstAt?, hq.matchAt? position, hm]
    refine congrArg some (congrArg (Found.mk _ · _ _) (List.map_congr_left fun k hk => ?_))
    rw [List.mem_range, hq.groups] at hk
    exact (hd.groupText?_eq (by omega) (Nat.le_of_lt_succ hk)).symm

/-- Where the first rule does not match, its groups take no part. -/
theorem TellsFirst.behind
    (h : TellsFirst ρ foldCase text here total (before + 1 + q.groups) (position + 1) rs m)
    (hq : Reading ρ foldCase letters text here r q)
    (hm : q.matchAt? letters here.offset here = none) :
    TellsFirst ρ foldCase text here total before position (r :: rs) m := by
  obtain ⟨r', g, at', hp, hspan, hfirst⟩ := h.first
  have hpart : ((Captures.ofMarks total m).get? (before + 1)).isSome = false := by
    rw [Captures.get?_ofMarks, h.unmarked _ (by omega) (by omega)]
    split <;> rfl
  refine ⟨fun v hv hvb => h.unmarked v hv (by omega), h.whole, r', g, at', ?_, hspan, ?_⟩
  · rw [Choice.participant?, hpart, if_neg (by decide), hq.groups, hp]
  · rw [Rule.firstAt?, hq.matchAt? position, hm, Option.map_none, hfirst]

end TellsFirst

/-- The groups of a choice that matches tell which rule is the first that does. -/
theorem firstAt?_of_waysOfAny (start total : Nat) {rs : List Rule} {qs : List Parsed}
    (h : List.Forall₂ (Reading ρ foldCase letters text here) rs qs) :
    ∀ before position : Nat, before + groupTotal qs ≤ total →
    match Expr.waysOfAny letters start (groupsFrom before qs) (Arrival.record ⟨here, []⟩ 0) with
    | [] => Rule.firstAt? ρ foldCase text here.offset position rs = none
    | b :: _ => TellsFirst ρ foldCase text here total before position rs (b.record 1).marks := by
  induction h with
  | nil =>
    intro before position _
    rw [groupsFrom, Expr.waysOfAny]
    rfl
  | @cons r q rs qs hq _ ih =>
    intro before position ht
    rw [groupTotal] at ht
    have hw := @ways_group letters q here (before + 1) hq.steady (Nat.succ_pos before)
      here.offset start
    rw [groupsFrom, Expr.waysOfAny]
    cases hm : q.matchAt? letters here.offset here with
    | some m =>
      rw [hm] at hw
      obtain ⟨b, bs, hb, hd⟩ := hw
      rw [hb, List.cons_append]
      exact hq.tells hm hd (by omega)
    | none =>
      rw [hm] at hw
      rw [hw, List.nil_append]
      have hi := ih (before + 1 + q.groups) (position + 1) (by omega)
      cases hf : Expr.waysOfAny letters start (groupsFrom (before + 1 + q.groups) qs)
          (Arrival.record ⟨here, []⟩ 0) with
      | nil =>
        rw [hf] at hi
        rw [Rule.firstAt?, hq.matchAt? position, hm]
        exact hi
      | cons b bs =>
        rw [hf] at hi
        exact hi.behind hq hm

/-- What a joined pattern matches at a place tells which rule is the first that matches there. -/
theorem firstAt?_of_matchAt? {p : Parsed} {rs : List Rule} {qs : List Parsed} (start first : Nat)
    (he : p.expr = eitherOf (groupsFrom 0 qs)) (hg : p.groups = groupTotal qs)
    (h : List.Forall₂ (Reading ρ foldCase letters text here) rs qs) :
    match p.matchAt? letters start here with
    | none => Rule.firstAt? ρ foldCase text here.offset first rs = none
    | some m => TellsFirst ρ foldCase text here p.groups 0 first rs m := by
  have hf := firstAt?_of_waysOfAny start p.groups h 0 first (by omega)
  unfold Parsed.matchAt?
  rw [he, ways_eitherOf]
  cases hw : Expr.waysOfAny letters start (groupsFrom 0 qs) (Arrival.record ⟨here, []⟩ 0) with
  | nil =>
    rw [hw] at hf
    exact hf
  | cons b bs =>
    rw [hw] at hf
    exact hf

end Place

/-! ### From place to place -/

namespace Text.Cursor

theorem offset_le_of_mem_onwardsFrom : ∀ {b a : List Char} {k : Nat} {h : k = byteSize b}
    {d : Cursor}, d ∈ onwardsFrom b a k h → k ≤ d.offset
  | _, [], _, _, _, hd => by
    rw [onwardsFrom, List.mem_singleton] at hd
    rw [hd]
  | _, x :: _, _, _, _, hd => by
    rw [onwardsFrom, List.mem_cons] at hd
    rcases hd with rfl | hd
    · exact Nat.le_refl _
    · exact Nat.le_trans (Nat.le_add_right _ x.utf8Size) (offset_le_of_mem_onwardsFrom hd)

/-- A place comes first of those from it on, and the others are further on. -/
theorem onwards_eq (c : Cursor) : ∃ cs, c.onwards = c :: cs ∧ ∀ d ∈ cs, c.offset < d.offset := by
  obtain ⟨b, a, k, h⟩ := c
  cases a with
  | nil => exact ⟨[], rfl, by simp⟩
  | cons x a =>
    refine ⟨_, rfl, fun d hd => ?_⟩
    have hle : k + x.utf8Size ≤ d.offset := offset_le_of_mem_onwardsFrom hd
    exact Nat.lt_of_lt_of_le (Nat.lt_add_of_pos_right x.utf8Size_pos) hle

theorem onwards_between_cons (b : List Char) (x : Char) (a : List Char) :
    (between b (x :: a)).onwards = between b (x :: a) :: (between (b ++ [x]) a).onwards := by
  have hc : (⟨x :: b.reverse, a, byteSize b + x.utf8Size,
      Place.byteSize_behind (between b (x :: a)).offset_eq x⟩ : Cursor) = between (b ++ [x]) a := by
    unfold between
    simp
  rw [← hc]
  rfl

end Text.Cursor

/-- The places of a text from one on, with their byte offsets. -/
theorem forall₂_onwards {text : List Char} : ∀ (after before : List Char), before ++ after = text →
    List.Forall₂ (fun c n => ∃ b a, b ++ a = text ∧ c = Cursor.between b a ∧ n = byteSize b)
      (Cursor.between before after).onwards (placesFrom (byteSize before) after)
  | [], before, h => .cons ⟨before, [], h, rfl, rfl⟩ .nil
  | x :: after, before, h => by
    rw [Cursor.onwards_between_cons, placesFrom]
    refine .cons ⟨before, x :: after, h, rfl, rfl⟩ ?_
    have ih := forall₂_onwards after (before ++ [x]) (by simpa using h)
    simpa using ih

/-- What is found is told to be something, and nothing else is. -/
def Told {β γ : Type} (found : Option β) (tell : β → Option γ) (told : Option γ) : Prop :=
  match found with
  | none => told = none
  | some b => ∃ c, tell b = some c ∧ told = some c

theorem findSome?_bind_eq {α β γ δ : Type} {f : α → Option β} {g : β → Option γ}
    {f' : δ → Option γ} {xs : List α} {ys : List δ}
    (h : List.Forall₂ (fun x y => Told (f x) g (f' y)) xs ys) :
    (xs.findSome? f).bind g = ys.findSome? f' := by
  induction h with
  | nil => rfl
  | @cons x y xs ys hxy _ ih =>
    rw [List.findSome?_cons, List.findSome?_cons]
    cases hf : f x with
    | none =>
      rw [hf] at hxy
      rw [hxy]
      exact ih
    | some b =>
      rw [hf] at hxy
      obtain ⟨c, hg, hf'⟩ := hxy
      rw [hf', Option.bind_some, hg]

/-- What a search finds at the place where it starts is what matches there. -/
theorem Regex.Parsed.search_at {α : Type} {q : Parsed} (hq : q.expr.isSteady) (letters : Letters)
    (here : Cursor) (f : Captures → α) :
    (match q.search letters here with
      | some c => if (c.get? 0).any (·.start == here.offset) then some (f c) else none
      | none => none) =
      (q.matchAt? letters here.offset here).map fun m => f (Captures.ofMarks q.groups m) := by
  have hwhole : ∀ (d : Cursor) (m : Marks), q.matchAt? letters here.offset d = some m →
      ((Captures.ofMarks q.groups m).get? 0).map (·.start) = some d.offset := by
    intro d m hm
    have h := @ways_group letters q d 1 hq Nat.zero_lt_one here.offset 0
    rw [hm] at h
    obtain ⟨b, bs, -, hd⟩ := h
    obtain ⟨stop, hstop⟩ := hd.alone
    rw [Captures.get?_ofMarks, if_pos (Nat.zero_le _), hstop]
    rfl
  obtain ⟨cs, hcs, hlt⟩ := here.onwards_eq
  unfold Parsed.search
  rw [hcs, List.findSome?_cons]
  cases hm : q.matchAt? letters here.offset here with
  | some m =>
    obtain ⟨s, hs, hstart⟩ := Option.map_eq_some_iff.mp (hwhole here m hm)
    simp [hs, hstart]
  | none =>
    cases hs : cs.findSome? (q.matchAt? letters here.offset) with
    | none => rfl
    | some m =>
      obtain ⟨d, hd, hm⟩ := List.exists_of_findSome?_eq_some hs
      obtain ⟨s, hs, hstart⟩ := Option.map_eq_some_iff.mp (hwhole d m hm)
      have hne : s.start ≠ here.offset := hstart ▸ (hlt d hd).ne'
      simp [hs, hne]

/-! ### Choices -/

section Choice

variable {ρ : Type} [Engine ρ] {letters : Letters} (hρ : LeftmostFirst ρ letters) {foldCase : Bool}

include hρ

/-- An accepted rule is read to a pattern that matches as the rule does alone. -/
theorem Rule.Accepted.exists_reading {r : Rule} (hr : r.Accepted ρ foldCase) :
    ∃ q, Parsed.read (Pattern.flagged r.source foldCase) = .ok q ∧
      ∀ before after : List Char,
        Reading ρ foldCase letters (before ++ after) (Cursor.between before after) r q := by
  obtain ⟨re, hre⟩ := hr.compiled
  obtain ⟨q, hq, -, hsearch⟩ := hρ.exists_parsed hre
  have halone := readsAs_of_read_flagged (Placement.Plain.dropBlanks hr.plain) hq
  have hsteady := halone.isSteady hr.plain rfl
  have hgroups : r.groups = q.groups := by
    have hc := hr.checked
    unfold Matcher.check at hc
    split at hc
    · next re' hre' =>
      obtain ⟨p, hp, hcount, -⟩ := hρ.exists_parsed hre'
      rw [← Except.ok.inj hc, halone.groups_eq hr.plain rfl, hcount]
      exact (readsAs_of_read hp).groups_eq hr.plain rfl
    · cases hc
  refine ⟨q, hq, fun before after => ⟨hgroups, hsteady, fun position => ?_⟩⟩
  have hat := Parsed.search_at hsteady letters (Cursor.between before after) fun c =>
    (⟨byteSize before, (List.range (r.groups + 1)).map (Choice.groupText? (before ++ after) c),
      r.kind, position⟩ : Found)
  unfold Rule.matchAt?
  rw [hre]
  change (match Engine.search re (before ++ after) (byteSize before) with
    | .ok (some c) => _
    | _ => none) = _
  rw [hsearch]
  refine Eq.trans ?_ hat
  cases q.search letters (Cursor.between before after) <;> rfl

theorem exists_readings {rs : List Rule} (hrs : ∀ r ∈ rs, r.Accepted ρ foldCase) :
    ∃ qs, List.Forall₂ (fun r q => Plain false r.source.toList ∧
      Parsed.read (Pattern.flagged r.source foldCase) = .ok q ∧ ∀ before after : List Char,
        Reading ρ foldCase letters (before ++ after) (Cursor.between before after) r q) rs qs := by
  induction rs with
  | nil => exact ⟨[], .nil⟩
  | cons r rs ih =>
    have hr := hrs r List.mem_cons_self
    obtain ⟨q, hq⟩ := hr.exists_reading hρ
    obtain ⟨qs, hqs⟩ := ih fun r hr => hrs r (List.mem_cons_of_mem _ hr)
    exact ⟨q :: qs, .cons ⟨hr.plain, hq⟩ hqs⟩

omit hρ in
/-- What the joined pattern matches at a place is told by its groups to be what the first rule that
matches there does. -/
theorem foundIn?_of_matchAt? {ch : Choice ρ} {p : Parsed} {qs : List Parsed} {text : List Char}
    {here : Cursor} (start : Nat) (he : p.expr = eitherOf (groupsFrom 0 qs))
    (hg : p.groups = groupTotal qs)
    (h : List.Forall₂ (Reading ρ foldCase letters text here) ch.rules qs) :
    Told (p.matchAt? letters start here) (fun m => ch.foundIn? text (Captures.ofMarks p.groups m))
      (Rule.firstAt? ρ foldCase text here.offset ch.first ch.rules) := by
  have hf := firstAt?_of_matchAt? start ch.first he hg h
  cases hm : p.matchAt? letters start here with
  | none =>
    rw [hm] at hf
    exact hf
  | some m =>
    rw [hm] at hf
    obtain ⟨stop, hwhole⟩ := hf.whole
    obtain ⟨r, g, position, hpart, -, hfirst⟩ := hf.first
    refine ⟨_, ?_, hfirst⟩
    dsimp only
    unfold Choice.foundIn?
    rw [Captures.get?_ofMarks, if_pos (Nat.zero_le _), hwhole, hpart]
    rfl

omit hρ in
/-- What has been joined: no rules, or the patterns of those from the first on. -/
theorem Choice.of_ofRules {all : List Rule} {first : Nat} {ch : Choice ρ}
    (h : Choice.ofRules all foldCase first = .ok ch) :
    all.drop first = [] ∧ ch.regex? = none ∨
      all.drop first ≠ [] ∧ ch.first = first ∧ ch.rules = all.drop first ∧
        ∃ re, Engine.compile (Pattern.flagged
          (Pattern.join ((all.drop first).map Rule.source) "|") foldCase) = .ok re ∧
          ch.regex? = some re := by
  unfold Choice.ofRules at h
  by_cases he : all.drop first = []
  · simp only [he, List.isEmpty_nil, if_true] at h
    exact Or.inl ⟨he, by rw [← Except.ok.inj h]⟩
  · simp only [List.isEmpty_iff, he, if_false] at h
    cases hc : (Engine.compile (Pattern.flagged
      (Pattern.join ((all.drop first).map Rule.source) "|") foldCase) : Except Fault ρ) with
    | error fault =>
      rw [hc] at h
      cases h
    | ok re =>
      rw [hc] at h
      obtain rfl := Except.ok.inj h
      exact Or.inr ⟨he, rfl, rfl, re, rfl, rfl⟩

/-- **A choice finds what looking for its rules one by one finds**: nothing if no rule matches at or
after the offset, or else at the least place where one does what the first of them matches there,
with the captures that its pattern makes alone. -/
theorem Choice.search_eq_scan {all : List Rule} {first : Nat} {ch : Choice ρ}
    (hch : Choice.ofRules all foldCase first = .ok ch)
    (hall : ∀ r ∈ all.drop first, r.Accepted ρ foldCase) (before after : List Char) :
    ch.search (before ++ after) (byteSize before) =
      .ok (Rule.scan? ρ foldCase (before ++ after) first (all.drop first)
        (placesFrom (byteSize before) after)) := by
  unfold Choice.search
  rcases Choice.of_ofRules hch with ⟨hnil, hnone⟩ | ⟨hne, hfirst, hrules, re, hre, hsome⟩
  · rw [hnil, hnone]
    exact congrArg Except.ok (List.findSome?_eq_none_iff.mpr fun _ _ => rfl).symm
  · obtain ⟨qs, hqs⟩ := exists_readings hρ hall
    obtain ⟨p, hp, -, hsearch⟩ := hρ.exists_parsed hre
    have hsources : List.Forall₂ (fun source q => Plain false source.toList ∧
        Parsed.read (Pattern.flagged source foldCase) = .ok q)
        ((all.drop first).map Rule.source) qs :=
      List.forall₂_map_left_iff.mpr (hqs.imp fun _ _ hq => ⟨hq.1, hq.2.1⟩)
    obtain ⟨he, hg⟩ := read_join hsources (by simpa using hne) hp
    rw [← hrules] at hqs ⊢
    rw [← hfirst]
    have hscan : ((Cursor.between before after).onwards.findSome?
          (p.matchAt? letters (byteSize before))).bind
          (fun m => ch.foundIn? (before ++ after) (Captures.ofMarks p.groups m)) =
        Rule.scan? ρ foldCase (before ++ after) ch.first ch.rules
          (placesFrom (byteSize before) after) := by
      refine findSome?_bind_eq ((forall₂_onwards after before rfl).imp fun c n hc => ?_)
      obtain ⟨b, a, ht, rfl, rfl⟩ := hc
      have hat := hqs.imp fun r q hq => hq.2.2 b a
      rw [ht] at hat
      exact foundIn?_of_matchAt? (byteSize before) he hg hat
    rw [← hscan, hsome]
    simp only [hsearch, Parsed.search, Option.bind_map]
    rfl

end Choice

/-- Of two rules the second matches first, and with its own group. -/
theorem Choice.search_eq_scan_second : ∃ ch : Choice Tried,
    Choice.ofRules [⟨.begins 0, "(?:(d)|(e))\\2", 2⟩, ⟨.ends, "(a|b)\\1", 1⟩] false 0 = .ok ch ∧
      ch.search "dabbee".toList 1 = .ok (some ⟨2, [some "bb", some "b"], .ends, 1⟩) := by
  have hok : ∀ {ε α : Type} {x : Except ε α}, x.isOk → ∃ a, x = .ok a := by
    rintro ε α (_ | a) h
    · cases h
    · exact ⟨a, rfl⟩
  obtain ⟨ch, hch⟩ := hok (x := Choice.ofRules (ρ := Tried)
    [⟨.begins 0, "(?:(d)|(e))\\2", 2⟩, ⟨.ends, "(a|b)\\1", 1⟩] false 0) (by decide +kernel)
  refine ⟨ch, hch, ?_⟩
  have h := Choice.search_eq_scan Tried.leftmostFirst hch ?_ ['d'] "abbee".toList
  · exact h.trans (congrArg Except.ok (by decide +kernel))
  · intro r hr
    simp only [List.drop_zero, List.mem_cons, List.not_mem_nil, or_false] at hr
    rcases hr with rfl | rfl
    · exact ⟨by decide +kernel, hok (by decide +kernel), by decide +kernel⟩
    · exact ⟨by decide +kernel, hok (by decide +kernel), by decide +kernel⟩

end CodeMarkup

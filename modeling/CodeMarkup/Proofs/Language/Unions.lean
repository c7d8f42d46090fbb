import CodeMarkup.Proofs.Language.Mirrored
import CodeMarkup.Proofs.Language.Scan
import CodeMarkup.Proofs.Regex.Beside

/-! # Patterns that are put together

The terminator of a mode that ends with its parent, and the pattern of several texts that cannot
occur in a mode, are put together from patterns that are written separately. Where these are plain,
and refer to no group unless they come first, what is put together matches at a place what the first
of them that matches there does alone (`spanAlone?_barred`, `spanAlone?_either`). So the end of a
mode is either its own or that of its parent, and what cannot occur is any of the texts
(`Language.compile_unions`).

A reference to a group that does not come first is one to another group of what is put together, and
the patterns lose their meaning (`Language.compile_misses_illegal`). -/

namespace CodeMarkup

open Regex
open Text (Cursor byteSize)

/-! ### What matches at a place -/

/-- The part of a text that a pattern matches at a byte offset. -/
def Engine.spanAt {ρ : Type} [Engine ρ] (re : ρ) (text : List Char) (offset : Nat) : Option Span :=
  match search re text offset with
  | .ok (some c) => (c.get? 0).filter (·.start == offset)
  | _ => none

theorem Regex.LeftmostFirst.matchesAt_eq {ρ : Type} [Engine ρ] {letters : Letters}
    (hρ : LeftmostFirst ρ letters) {source : String} {re : ρ} (hre : Engine.compile source = .ok re)
    (before after : List Char) : Engine.matchesAt re (before ++ after) (byteSize before) =
      .ok (Engine.spanAt re (before ++ after) (byteSize before)).isSome := by
  obtain ⟨p, -, -, hsearch⟩ := hρ.exists_parsed hre
  unfold Engine.matchesAt Engine.spanAt
  rw [hsearch]
  cases p.search letters (Cursor.between before after) with
  | none => rfl
  | some c =>
    cases hc : c.get? 0 with
    | none => simp [hc]
    | some s => by_cases hs : s.start = byteSize before <;> simp [Option.filter, hc, hs]

namespace Regex

/-- Where the first way ends in which a pattern matches at a place. -/
def Parsed.endAt? (p : Parsed) (letters : Letters) (here : Cursor) : Option Cursor :=
  (p.expr.ways letters here.offset (Arrival.record ⟨here, []⟩ 0)).head?.map Arrival.here

/-- What is known when groups from some on have recorded nothing at a place where a match starts. -/
structure Fresh (here : Cursor) (before : Nat) (a : Arrival) : Prop where
  place : a.here = here
  whole : ∀ slot < 2, (Arrival.record ⟨here, []⟩ 0).marks.place? slot = a.marks.place? slot
  others : ∀ slot, 2 + 2 * before ≤ slot → a.marks.place? slot = none

variable {letters : Letters} {here : Cursor}

theorem fresh_start (here : Cursor) : Fresh here 0 (Arrival.record ⟨here, []⟩ 0) where
  place := rfl
  whole _ _ := rfl
  others slot hs := by
    rw [Arrival.record, Marks.place?_cons, if_neg (by omega)]
    rfl

theorem fresh_group (here : Cursor) : Fresh here 1 ((Arrival.record ⟨here, []⟩ 0).record 2) where
  place := rfl
  whole slot hs := by
    rw [Arrival.record, Arrival.record, Marks.place?_cons, Marks.place?_cons,
      if_neg (show slot ≠ 2 by omega), Marks.place?_cons]
  others slot hs := by
    rw [Arrival.record, Arrival.record, Marks.place?_cons, if_neg (by omega), Marks.place?_cons,
      if_neg (by omega)]
    rfl

theorem Fresh.mono {before later : Nat} {a : Arrival} (h : Fresh here before a)
    (hle : before ≤ later) : Fresh here later a :=
  ⟨h.place, h.whole, fun slot hs => h.others slot (by omega)⟩

theorem Fresh.shifts {before : Nat} {a : Arrival} (h : Fresh here before a) :
    Shifts before a.marks (Arrival.record ⟨here, []⟩ 0) a where
  here := h.place
  whole := h.whole
  groups slot hs := by
    rw [h.others _ (by omega), (fresh_start here).others slot (by omega)]
  others _ _ := rfl

/-- A pattern whose groups have been numbered on ends where it ends alone. -/
theorem head?_ways_renumber {p : Parsed} (hp : p.expr.isSteady) (letters : Letters) {before : Nat}
    {a : Arrival} (ha : Fresh here before a) (start : Nat) :
    ((p.expr.renumber before).ways letters start a).head?.map Arrival.here =
      p.endAt? letters here := by
  have h := Expr.ways_renumber letters here.offset start p.expr hp _ _ ha.shifts
  unfold Parsed.endAt?
  generalize p.expr.ways letters here.offset (Arrival.record ⟨here, []⟩ 0) = found at h ⊢
  generalize (p.expr.renumber before).ways letters start a = found' at h ⊢
  cases h with
  | nil => rfl
  | cons hb _ => simp [hb.here]

/-- The groups of the whole match that a pattern records at a place. -/
theorem group?_zero_of_matchAt? {p : Parsed} (hp : p.expr.isSteady) (letters : Letters)
    (here : Cursor) :
    (p.matchAt? letters here.offset here).bind (·.group? 0) =
      (p.endAt? letters here).map fun stop => (⟨here, 0⟩, ⟨stop, 0⟩) := by
  have h := Expr.ways_renumber letters here.offset here.offset p.expr hp _ _
    (fresh_start here).shifts
  unfold Parsed.matchAt? Parsed.endAt?
  generalize (p.expr.renumber 0).ways letters here.offset _ = found' at h
  generalize p.expr.ways letters here.offset (Arrival.record ⟨here, []⟩ 0) = found at h ⊢
  cases h with
  | nil => rfl
  | @cons b b' _ _ hb _ =>
    have hstart : (b.record 1).marks.place? 0 = some ⟨here, 0⟩ := by
      rw [Arrival.record, Marks.place?_cons, if_neg (by decide), hb.whole 0 (by decide)]
      rfl
    have hstop : (b.record 1).marks.place? 1 = some ⟨b.here, 0⟩ := by
      rw [Arrival.record, Marks.place?_cons, if_pos rfl]
    simp [Marks.group?, hstart, hstop]

/-- What an engine that searches in this way matches at a place ends with the first way there. -/
theorem LeftmostFirst.spanAt_eq {ρ : Type} [Engine ρ] (hρ : LeftmostFirst ρ letters)
    {source : String} {re : ρ} (hre : Engine.compile source = .ok re) {p : Parsed}
    (hread : Parsed.read source = .ok p) (hp : p.expr.isSteady) (before after : List Char) :
    Engine.spanAt re (before ++ after) (byteSize before) =
      (p.endAt? letters (Cursor.between before after)).map fun stop =>
        ⟨byteSize before, stop.offset⟩ := by
  obtain ⟨q, hq, -, hsearch⟩ := hρ.exists_parsed hre
  obtain rfl : p = q := Except.ok.inj (hread.symm.trans hq)
  have hat := Parsed.search_at hp letters (Cursor.between before after) fun c => c.get? 0
  -- a search counts if what it finds is at the place where it starts
  have hspan : Engine.spanAt re (before ++ after) (byteSize before) =
      (p.matchAt? letters (byteSize before) (Cursor.between before after)).bind fun m =>
        (Captures.ofMarks p.groups m).get? 0 := by
    have hjoin : ∀ found : Option Marks, (found.map fun m =>
        (Captures.ofMarks p.groups m).get? 0).join =
          found.bind fun m => (Captures.ofMarks p.groups m).get? 0 := by
      rintro (_ | m) <;> rfl
    refine Eq.trans ?_ ((congrArg Option.join hat).trans (hjoin _))
    unfold Engine.spanAt
    rw [hsearch]
    cases p.search letters (Cursor.between before after) with
    | none => rfl
    | some c =>
      change (c.get? 0).filter (fun s : Span => s.start == byteSize before) =
        (if (c.get? 0).any (fun s : Span => s.start == byteSize before) then
          some (c.get? 0) else none).join
      cases c.get? 0 with
      | none => rfl
      | some s =>
        simp only [Option.filter, Option.any_some]
        split <;> rfl
  have hcaptured : ∀ m : Marks, (Captures.ofMarks p.groups m).get? 0 =
      (m.group? 0).map fun places => ⟨places.1.offset, places.2.offset⟩ := fun m => by
    rw [Captures.get?_ofMarks, if_pos (Nat.zero_le _)]
  have hwhole := congrArg (Option.map fun places => (⟨places.1.offset, places.2.offset⟩ : Span))
    (group?_zero_of_matchAt? hp letters (Cursor.between before after))
  rw [Option.map_bind, Option.map_map] at hwhole
  rw [hspan]
  simp only [hcaptured]
  exact hwhole

/-! ### Alternatives in a row -/

theorem renumber_eitherOf (offset : Nat) (es : List Expr) :
    (eitherOf es).renumber offset = eitherOf (es.map (Expr.renumber offset)) := by
  rcases es with _ | ⟨e, _ | ⟨e', es⟩⟩
  · simp [eitherOf, Expr.renumber, Expr.renumberAll_eq_map]
  · rfl
  · simp [eitherOf, Expr.renumber, Expr.renumberAll_eq_map]

theorem waysOfAny_append (start : Nat) (a : Arrival) : ∀ es es' : List Expr,
    Expr.waysOfAny letters start (es ++ es') a =
      Expr.waysOfAny letters start es a ++ Expr.waysOfAny letters start es' a
  | [], es' => by rw [List.nil_append, Expr.waysOfAny, List.nil_append]
  | e :: es, es' => by
    rw [List.cons_append, Expr.waysOfAny, Expr.waysOfAny, waysOfAny_append start a es es',
      List.append_assoc]

/-- The first of the alternatives in a row to match ends where the first of the patterns to match
does alone. -/
theorem RowsOf.head?_ways {before : Nat} {qs : List Parsed} {es : List Expr}
    (h : RowsOf before qs es) (hqs : ∀ q ∈ qs, q.expr.isSteady) {a : Arrival}
    (ha : Fresh here before a) (start : Nat) :
    ((eitherOf es).ways letters start a).head?.map Arrival.here =
      qs.findSome? (·.endAt? letters here) := by
  rw [ways_eitherOf]
  induction h with
  | nil => rw [Expr.waysOfAny]; rfl
  | @cons before q qs es more he hmore ih =>
    have hq := hqs q List.mem_cons_self
    have hrest := ih (fun q hq => hqs q (List.mem_cons_of_mem _ hq))
      (ha.mono (Nat.le_add_right before q.groups))
    have hfirst := head?_ways_renumber hq letters ha start
    rw [he, renumber_eitherOf, ways_eitherOf] at hfirst
    rw [waysOfAny_append, List.head?_append, List.findSome?_cons, ← hfirst, ← hrest]
    cases (Expr.waysOfAny letters start (es.map (Expr.renumber before)) a).head? <;> rfl

theorem isSteady_eitherOf (es : List Expr) : (eitherOf es).isSteady = es.all Expr.isSteady := by
  fun_cases eitherOf es with
  | case1 e => simp
  | case2 es _ => rw [Expr.isSteady, Expr.allSteady_eq_all]

theorem RowsOf.isSteady {before : Nat} {qs : List Parsed} {es : List Expr} (h : RowsOf before qs es)
    (hqs : ∀ q ∈ qs, q.expr.isSteady) : (eitherOf es).isSteady := by
  rw [isSteady_eitherOf]
  induction h with
  | nil => rfl
  | @cons before q qs es more he _ ih =>
    have hq := hqs q List.mem_cons_self
    rw [he] at hq
    have hmoved := Expr.isSteady_renumber before _ hq
    rw [renumber_eitherOf, isSteady_eitherOf] at hmoved
    rw [List.all_append, hmoved, ih fun q hq => hqs q (List.mem_cons_of_mem _ hq), Bool.and_self]

end Regex

/-! ### Patterns that are put together -/

namespace Pattern

/-- Patterns that keep their meaning side by side, so many groups coming before the first of them:
all are plain, and those that come behind a group refer to none. -/
def Independent : Nat → List String → Prop
  | _, [] => True
  | before, source :: sources =>
    Plain false source.toList ∧ (before = 0 ∨ isUnreferring source.toList) ∧
      Independent (before + groupsIn source.toList) sources

instance decidableIndependent : ∀ (before : Nat) (sources : List String),
    Decidable (Independent before sources)
  | _, [] => .isTrue trivial
  | before, source :: sources =>
    have := decidableIndependent (before + groupsIn source.toList) sources
    inferInstanceAs (Decidable (_ ∧ _ ∧ _))

variable (ρ : Type) [Engine ρ] (foldCase : Bool)

/-- The engine accepts a pattern with the flags of the grammar. -/
def Accepted (source : String) : Prop := ∃ re : ρ, Engine.compile (flagged source foldCase) = .ok re

/-- What a pattern of a grammar, compiled alone, matches at a byte offset. -/
def spanAlone? (text : List Char) (offset : Nat) (source : String) : Option Span :=
  match (Engine.compile (flagged source foldCase) : Except Fault ρ) with
  | .ok re => Engine.spanAt re text offset
  | .error _ => none

end Pattern

section Union

open Pattern

variable {ρ : Type} [Engine ρ] {letters : Letters} (hρ : LeftmostFirst ρ letters) {foldCase : Bool}

include hρ

/-- What an accepted pattern is read to tells what it matches alone. -/
theorem spanAlone?_eq {source : String} {p : Parsed} (haccepted : Accepted ρ foldCase source)
    (hread : Parsed.read (flagged source foldCase) = .ok p) (hp : p.expr.isSteady)
    (before after : List Char) :
    spanAlone? ρ foldCase (before ++ after) (byteSize before) source =
      (p.endAt? letters (Cursor.between before after)).map fun stop =>
        ⟨byteSize before, stop.offset⟩ := by
  obtain ⟨re, hre⟩ := haccepted
  rw [spanAlone?, hre]
  exact hρ.spanAt_eq hre hread hp before after

/-- What independent patterns are read to, and what the first of them to match matches. -/
theorem exists_beside {before : Nat} {sources : List String} (h : Independent before sources)
    (haccepted : ∀ source ∈ sources, Accepted ρ foldCase source) :
    ∃ qs, Beside (grammarFlags foldCase) before (sources.map String.toList) qs ∧
      (∀ q ∈ qs, q.expr.isSteady) ∧ ∀ b a : List Char,
        sources.findSome? (spanAlone? ρ foldCase (b ++ a) (byteSize b)) =
          (qs.findSome? (·.endAt? letters (Cursor.between b a))).map fun stop =>
            ⟨byteSize b, stop.offset⟩ := by
  induction sources generalizing before with
  | nil => exact ⟨[], .nil before, by simp, fun _ _ => rfl⟩
  | cons source sources ih =>
    obtain ⟨hplain, hrefers, hrest⟩ := h
    have hsource := haccepted source List.mem_cons_self
    obtain ⟨re, hre⟩ := hsource
    obtain ⟨q, hread, -, -⟩ := hρ.exists_parsed hre
    have halone := readsAs_of_read_flagged (Placement.Plain.dropBlanks hplain) hread
    have hq := halone.isSteady hplain rfl
    have hmoved : moved before source.toList = source.toList := by
      rcases hrefers with rfl | hrefers
      · exact moved_zero source.toList
      · exact moved_of_isUnreferring hrefers before
    rw [← halone.groups_eq hplain rfl] at hrest
    obtain ⟨qs, hbeside, hqs, hspans⟩ :=
      ih hrest fun source h => haccepted source (List.mem_cons_of_mem _ h)
    refine ⟨q :: qs, .cons hplain hmoved halone hbeside, ?_, fun b a => ?_⟩
    · exact List.forall_mem_cons.mpr ⟨hq, hqs⟩
    · rw [List.findSome?_cons, List.findSome?_cons, spanAlone?_eq hρ ⟨re, hre⟩ hread hq, hspans]
      cases q.endAt? letters (Cursor.between b a) <;> rfl

/-- **Independent patterns with bars between them match what the first of them to match does.** -/
theorem spanAlone?_barred {sources : List String} (h : Independent 0 sources) (hne : sources ≠ [])
    (haccepted : ∀ source ∈ sources, Accepted ρ foldCase source)
    (hunion : Accepted ρ foldCase ("|".intercalate sources)) (before after : List Char) :
    spanAlone? ρ foldCase (before ++ after) (byteSize before) ("|".intercalate sources) =
      sources.findSome? (spanAlone? ρ foldCase (before ++ after) (byteSize before)) := by
  obtain ⟨qs, hbeside, hqs, hspans⟩ := exists_beside hρ h haccepted
  obtain ⟨re, hre⟩ := hunion
  obtain ⟨p, hread, -, -⟩ := hρ.exists_parsed hre
  obtain ⟨es, hrows, he, -⟩ := read_barred hbeside hne hread
  have hp : p.expr.isSteady := he ▸ hrows.isSteady hqs
  rw [spanAlone?_eq hρ ⟨re, hre⟩ hread hp, hspans, ← hrows.head?_ways hqs (fresh_start _), ← he]
  rfl

/-- **A group of patterns that refer to no group matches what the first of them to match does.** -/
theorem spanAlone?_either {sources : List String} (h : Independent 1 sources) (hne : sources ≠ [])
    (haccepted : ∀ source ∈ sources, Accepted ρ foldCase source)
    (hunion : Accepted ρ foldCase (either sources)) (before after : List Char) :
    spanAlone? ρ foldCase (before ++ after) (byteSize before) (either sources) =
      sources.findSome? (spanAlone? ρ foldCase (before ++ after) (byteSize before)) := by
  obtain ⟨qs, hbeside, hqs, hspans⟩ := exists_beside hρ h haccepted
  obtain ⟨re, hre⟩ := hunion
  obtain ⟨p, hread, -, -⟩ := hρ.exists_parsed hre
  obtain ⟨es, hrows, he, -⟩ := read_either hbeside hne hread
  have hp : p.expr.isSteady := by
    rw [he, Expr.isSteady, hrows.isSteady hqs]
    rfl
  rw [spanAlone?_eq hρ ⟨re, hre⟩ hread hp, hspans,
    ← hrows.head?_ways hqs (fresh_group _) (Cursor.between before after).offset]
  congr 1
  unfold Parsed.endAt?
  rw [he, Expr.ways, List.head?_map, Option.map_map]
  rfl

end Union

/-! ### The fields of a mode -/

section Fields

variable {ρ : Type} [Engine ρ] {foldCase : Bool}

/-- What a mode inside another one gets from its grammar and from the terminator of that one. -/
structure Bounded (foldCase : Bool) (m : Mode) (around : String) (cm : CompiledMode ρ) : Prop where
  endsWithParent : cm.endsWithParent = m.endsWithParent.getD false
  endPattern : cm.endPattern = Language.ownEnd m cm.beginPattern
  terminator : cm.terminator = Language.terminatorOf m cm.endPattern around
  endRegex : cm.endPattern.mapM (Language.prepare foldCase) = .ok cm.endRegex

namespace Language

theorem exists_prepared {source : Option String} {re : Option (Prepared ρ)}
    (h : source.mapM (prepare foldCase) = .ok re) : ∀ s, source = some s → ∃ r : ρ,
      re = some ⟨Pattern.flagged s foldCase, r⟩ ∧
        Engine.compile (Pattern.flagged s foldCase) = .ok r := by
  rintro s rfl
  obtain ⟨prepared, hprepared, h⟩ := of_bind_ok (x := prepare foldCase s) h
  cases h
  unfold prepare Prepared.compile at hprepared
  cases hs : (Engine.compile (Pattern.flagged s foldCase) : Except Fault ρ) with
  | error fault =>
    rw [hs] at hprepared
    cases hprepared
  | ok r =>
    rw [hs] at hprepared
    cases hprepared
    exact ⟨r, rfl, rfl⟩

theorem FieldsOf.bounded {m : Mode} {terminator : String} {cm : CompiledMode ρ}
    (h : FieldsOf foldCase m (some terminator) cm) : Bounded foldCase m terminator cm := by
  obtain ⟨begin?, hboundaries⟩ := h.boundaries
  obtain ⟨hbegin, hpair⟩ := Prod.mk.inj hboundaries
  obtain ⟨hpattern, hterminator⟩ := Prod.mk.inj hpair
  rw [← hbegin] at hpattern hterminator
  rw [← hpattern] at hterminator
  exact ⟨h.endsWithParent, hpattern, hterminator, h.endRegex⟩

end Language

/-- A rule of this kind matches at a byte offset. -/
def CompiledMode.Takes (cm : CompiledMode ρ) (kind : RuleKind) (text : List Char) (offset : Nat) :
    Prop :=
  ∃ r ∈ cm.matcher.rules, r.kind = kind ∧
    (r.matchAt? ρ cm.matcher.foldCase text offset 0).isSome

/-- The text that a rule matches is what its pattern matches alone. -/
theorem Rule.lexeme_matchAt? (r : Rule) (text : List Char) (offset position : Nat) :
    (r.matchAt? ρ foldCase text offset position).map Found.lexeme =
      (Pattern.spanAlone? ρ foldCase text offset r.source).map fun s =>
        String.ofList ((Text.slice? text s.start s.stop).getD []) := by
  unfold Rule.matchAt? Pattern.spanAlone? Engine.spanAt
  cases (Engine.compile (Pattern.flagged r.source foldCase) : Except Fault ρ) with
  | error fault => rfl
  | ok re =>
    dsimp only
    cases Engine.search re text offset with
    | error e => rfl
    | ok found =>
      cases found with
      | none => rfl
      | some c =>
        cases hc : c.get? 0 with
        | none => simp [hc]
        | some s =>
          by_cases hs : s.start = offset <;>
            simp [hc, hs, Found.lexeme, Found.group?, Choice.groupText?]

theorem Rule.isSome_matchAt? (r : Rule) (text : List Char) (offset position : Nat) :
    (r.matchAt? ρ foldCase text offset position).isSome =
      (Pattern.spanAlone? ρ foldCase text offset r.source).isSome := by
  rw [← Option.isSome_map (f := Found.lexeme), r.lexeme_matchAt?, Option.isSome_map]

end Fields

/-! ### Ends and what cannot occur -/

section Rules

variable {ρ : Type} [Engine ρ] {g : Grammar} {l : Language ρ} {id : Nat} {m : Mode}
  {around : Option Nat} {cm : CompiledMode ρ} {text : List Char} {offset : Nat}

open Pattern

theorem CompiledMode.takes_iff {kind : RuleKind} : cm.Takes kind text offset ↔
    ∃ source, (kind, source) ∈ cm.matcher.sources ∧
      (spanAlone? ρ cm.matcher.foldCase text offset source).isSome := by
  unfold Takes Matcher.sources
  constructor
  · rintro ⟨r, hr, rfl, hmatch⟩
    rw [Rule.isSome_matchAt?] at hmatch
    exact ⟨r.source, List.mem_map_of_mem hr, hmatch⟩
  · rintro ⟨source, hsource, hmatch⟩
    obtain ⟨r, hr, he⟩ := List.mem_map.mp hsource
    obtain ⟨rfl, rfl⟩ := Prod.mk.inj he
    exact ⟨r, hr, rfl, by rwa [Rule.isSome_matchAt?]⟩

namespace Language

/-- A mode has one rule for its end, which is its terminator, or none if that is empty. -/
theorem Mirrors.takes_ends (h : Mirrors g l id m around cm) : cm.Takes .ends text offset ↔
    cm.terminator ≠ "" ∧
      (spanAlone? ρ g.caseInsensitive text offset cm.terminator).isSome := by
  rw [CompiledMode.takes_iff, h.rules, h.foldCase]
  unfold rulesOf
  by_cases ht : cm.terminator = ""
  · simp [ht]
  · have he : cm.terminator.isEmpty = false := by simpa using ht
    simp [ht, he]

theorem Mirrors.takes_illegal (h : Mirrors g l id m around cm) : cm.Takes .illegal text offset ↔
    ∃ source, cm.illegal = some source ∧
      (spanAlone? ρ g.caseInsensitive text offset source).isSome := by
  rw [CompiledMode.takes_iff, h.rules, h.foldCase]
  unfold rulesOf
  by_cases ht : cm.terminator.isEmpty <;> simp [ht]

/-- The ends that the terminator of a mode that ends with its parent is put together from. -/
def endsWithin (own : Option String) (parentTerminator : String) : List String :=
  own.toList ++ [parentTerminator].filter (· ≠ "")

theorem terminatorOf_eq {own : Option String} {parentTerminator : String}
    (h : m.endsWithParent = some true) : terminatorOf m own parentTerminator =
      "|".intercalate (endsWithin own parentTerminator) := by
  unfold terminatorOf endsWithin
  by_cases ht : parentTerminator = ""
  · cases own <;> simp [h, ht]
  · have he : parentTerminator.isEmpty = false := by simpa using ht
    cases own <;> simp [h, ht, he, String.append_assoc]

/-- **What is put together matches where one of its parts does.** The end of a mode that ends with
its parent matches where its own end or the terminator of the parent matches alone, and what cannot
occur in a mode is found where one of the patterns given for it matches alone. This is so for
patterns that keep their meaning side by side. -/
theorem compile_unions {letters : Letters} (hρ : LeftmostFirst ρ letters) {name : String}
    (h : compile g name = .ok l) (hm : Stands g l id m around) (hcm : l.mode? id = some cm)
    (before after : List Char) :
    (∀ parent ends, around = some parent → m.endsWithParent = some true →
      ends = endsWithin (ownEnd m cm.beginPattern) (l.mode parent).terminator →
      "" ∉ ends → Independent 0 ends →
      (∀ source ∈ [cm.terminator, (l.mode parent).terminator], source ≠ "" →
        Accepted ρ g.caseInsensitive source) →
      (cm.Takes .ends (before ++ after) (byteSize before) ↔ ∃ source ∈ ends,
        (spanAlone? ρ g.caseInsensitive (before ++ after) (byteSize before) source).isSome)) ∧
    ∀ sources, m.illegal = some (.any sources) → Independent 1 sources →
      (∀ source ∈ either sources :: sources, Accepted ρ g.caseInsensitive source) →
      (cm.Takes .illegal (before ++ after) (byteSize before) ↔ ∃ source ∈ sources,
        (spanAlone? ρ g.caseInsensitive (before ++ after) (byteSize before) source).isSome) := by
  obtain ⟨c, b, hr⟩ := exists_rooted h
  obtain ⟨cm', hmirror⟩ := hr.mirrors hm
  obtain rfl := Option.some.inj (hcm.symm.trans hmirror.found)
  have hfields := of_ownFields hmirror.own
  constructor
  · rintro parent ends rfl hwith hends hempty hind haccepted
    have hb := hfields.bounded
    have hown : cm.endPattern = ownEnd m cm.beginPattern := hb.endPattern
    have hterminator : cm.terminator = "|".intercalate ends := by
      rw [hends, ← hown, ← terminatorOf_eq hwith]
      exact hb.terminator
    have heach : ∀ source ∈ ends, Accepted ρ g.caseInsensitive source := by
      intro source hsource
      rw [hends, endsWithin, List.mem_append, Option.mem_toList, List.mem_filter] at hsource
      rcases hsource with hsource | ⟨hsource, hne⟩
      · obtain ⟨re, -, hre⟩ := exists_prepared hb.endRegex source (hown.trans hsource)
        exact ⟨re, hre⟩
      · exact haccepted source (List.mem_cons_of_mem _ hsource) (of_decide_eq_true hne)
    rw [hmirror.takes_ends]
    -- nothing to put together: there is no rule for an end
    by_cases hnil : ends = []
    · rw [hterminator, hnil]
      simp
    · have hne : cm.terminator ≠ "" := by
        rw [hterminator]
        cases ends with
        | nil => exact absurd rfl hnil
        | cons source sources =>
          have hs : source ≠ "" := fun he => hempty (he ▸ List.mem_cons_self)
          cases sources <;> simp [hs]
      have hunion := haccepted cm.terminator List.mem_cons_self hne
      rw [hterminator] at hunion ⊢
      rw [spanAlone?_barred hρ hind hnil heach hunion, List.findSome?_isSome_iff]
      exact and_iff_right (hterminator ▸ hne)
  · intro sources hsources hind haccepted
    have hpattern : cm.illegal = illegalPattern (some (.any sources)) := hsources ▸ hfields.illegal
    rw [hmirror.takes_illegal, hpattern]
    cases sources with
    | nil => simp [illegalPattern]
    | cons source sources =>
      have hunion := haccepted _ List.mem_cons_self
      have heach := fun s hs => haccepted s (List.mem_cons_of_mem _ hs)
      simp only [illegalPattern, Option.some.injEq, exists_eq_left',
        spanAlone?_either hρ hind (List.cons_ne_nil _ _) heach hunion, List.findSome?_isSome_iff]

/-- A mode that ends by itself, where a letter comes twice, or with the mode around it, and in which
two texts cannot occur. -/
def joining : Grammar where
  root := { contains := some [.mode 1] }
  shelf := { modes := #[
    { beginPattern := some "s", endPattern := some "(b)\\1", endsWithParent := some true,
      illegal := some (.any ["c", "d(e)"]) },
    { beginPattern := some "a", endPattern := some "x|y(z)", contains := some [.mode 0] }] }

/-- The mode ends by itself and with the mode around it, and the second text is found. -/
theorem compile_unions_joining : ∃ (l : Language Tried) (cm : CompiledMode Tried),
    compile joining "t" = .ok l ∧ l.mode? 2 = some cm ∧
      cm.Takes .ends "bbyz".toList 0 ∧ cm.Takes .ends "bbyz".toList 2 ∧
      ¬ cm.Takes .ends "bbyz".toList 1 ∧ cm.Takes .illegal "ade".toList 1 := by
  have hc : ((compile joining "t" : Except Problem (Language Tried)).toOption.map fun l =>
      l.modes.toList.map fun cm => (cm.children, cm.beginPattern, cm.terminator)) =
      some [([1], "", ""), ([2], "a", "x|y(z)"), ([], "s", "(b)\\1|x|y(z)")] := by decide +kernel
  cases hl : (compile joining "t" : Except Problem (Language Tried)) with
  | error p => rw [hl] at hc; cases hc
  | ok l =>
    rw [hl] at hc
    have hmode : ∀ id fields,
        [([1], "", ""), ([2], "a", "x|y(z)"), ([], "s", "(b)\\1|x|y(z)")][id]? = some fields →
        ∃ cm, l.mode? id = some cm ∧
          (cm.children, cm.beginPattern, cm.terminator) = fields := by
      intro id fields h
      rw [← Option.some.inj hc, List.getElem?_map, Array.getElem?_toList] at h
      exact Option.map_eq_some_iff.mp h
    obtain ⟨root, hroot, hfields⟩ := hmode 0 _ rfl
    obtain ⟨hchildren, -⟩ := Prod.mk.inj hfields
    obtain ⟨outer, houter, hfields⟩ := hmode 1 _ rfl
    obtain ⟨hinside, -, houterEnd⟩ : outer.children = [2] ∧ outer.beginPattern = "a" ∧
        outer.terminator = "x|y(z)" := by simpa using hfields
    obtain ⟨cm, hcm, hfields⟩ := hmode 2 _ rfl
    obtain ⟨-, hbegin, hend⟩ : cm.children = [] ∧ cm.beginPattern = "s" ∧
        cm.terminator = "(b)\\1|x|y(z)" := by simpa using hfields
    have hstands : Stands joining l 2 (joining.shelf.mode 0) (some 1) :=
      .child (n := 0) (.child (n := 0) .root hroot rfl (by rw [hchildren]; rfl)) houter rfl
        (by rw [hinside]; rfl)
    have hterminator : (l.mode 1).terminator = "x|y(z)" := by
      rw [mode, houter]
      exact houterEnd
    have haccepted : ∀ source ∈ ["(b)\\1|x|y(z)", "x|y(z)", "(c|d(e))", "c", "d(e)"],
        Accepted Tried false source := by
      have hread : ∀ source ∈ ["(b)\\1|x|y(z)", "x|y(z)", "(c|d(e))", "c", "d(e)"],
          (Parsed.read (flagged source false)).isOk := by decide +kernel
      intro source hsource
      have hok := hread source hsource
      cases hp : Parsed.read (flagged source false) with
      | error fault => rw [hp] at hok; cases hok
      | ok p => exact ⟨⟨p⟩, congrArg (Except.map Tried.mk) hp⟩
    have hends : ∀ before after : List Char,
        cm.Takes .ends (before ++ after) (byteSize before) ↔
          ∃ source ∈ ["(b)\\1", "x|y(z)"], (spanAlone? Tried false (before ++ after)
            (byteSize before) source).isSome := fun before after => by
      refine (compile_unions Tried.leftmostFirst hl hstands hcm before after).1 1 _ rfl rfl ?_
        (by decide) (by decide +kernel) ?_
      · rw [hterminator, hbegin]
        rfl
      · intro source hsource _
        rw [hterminator, hend] at hsource
        refine haccepted source (List.mem_append_left ["(c|d(e))", "c", "d(e)"] hsource)
    have hillegal := (compile_unions Tried.leftmostFirst hl hstands hcm ['a'] ['d', 'e']).2
      ["c", "d(e)"] rfl (by decide +kernel) fun source hsource =>
        haccepted source (List.mem_append_right ["(b)\\1|x|y(z)", "x|y(z)"] hsource)
    refine ⟨l, cm, rfl, hcm, (hends [] "bbyz".toList).mpr ?_, (hends "bb".toList "yz".toList).mpr ?_,
      fun h => ?_, hillegal.mpr ?_⟩
    · decide +kernel
    · decide +kernel
    · exact absurd ((hends "b".toList "byz".toList).mp h) (by decide +kernel)
    · decide +kernel

/-- Two letters that cannot come twice. -/
def doubling : Grammar where
  root := { illegal := some (.any ["(a)\\1", "(b)\\1"]) }

/-- A letter that comes twice is found by its own pattern but not by what is put together: there the
reference is to the group around all. -/
theorem compile_misses_illegal : ∃ l : Language Tried, compile doubling "t" = .ok l ∧
    (spanAlone? Tried false "xaa".toList 1 "(a)\\1").isSome ∧
      ¬ l.root.Takes .illegal "xaa".toList 1 := by
  have hc : ((compile doubling "t" : Except Problem (Language Tried)).toOption.map fun l =>
      (l.root.matcher.sources, l.root.matcher.foldCase)) =
      some ([(.illegal, "((a)\\1|(b)\\1)")], false) := by decide +kernel
  cases hl : (compile doubling "t" : Except Problem (Language Tried)) with
  | error p => rw [hl] at hc; cases hc
  | ok l =>
    rw [hl] at hc
    obtain ⟨hsources, hfold⟩ := Prod.mk.inj (Option.some.inj hc)
    refine ⟨l, rfl, by decide +kernel, fun htakes => ?_⟩
    rw [CompiledMode.takes_iff, hsources, hfold] at htakes
    obtain ⟨source, hsource, hmatch⟩ := htakes
    obtain ⟨-, rfl⟩ := Prod.mk.inj (List.mem_singleton.mp hsource)
    exact absurd hmatch (by decide +kernel)

end Language

end Rules

end CodeMarkup

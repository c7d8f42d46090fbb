import CodeMarkup.Proofs.Highlight.Delegation
import CodeMarkup.Proofs.Language.Outlines
import CodeMarkup.Proofs.Language.Sought

/-! # Languages that are looked over

Whether no text is lost in a language and going through code ends there can be told from the outlines
of its modes and from the patterns of its rules (`Language.finishes_of_surveyed`,
`Language.lossless_of_surveyed`): from which modes leave the text of a begin or an end to be gone
through again, which modes hold embedded code, and which patterns take a character wherever they
match (`Pattern.Takes`). All of this can be decided, whatever engine looks for the patterns. -/

namespace CodeMarkup

open Regex

/-! ### Patterns -/

/-- Reads a pattern of these characters. -/
def Regex.Parsed.readChars (cs : List Char) : Except Fault Parsed := do
  let limit := Text.byteSize cs / 2
  let (expr, s) ← (PatternReader.alternatives (8 * cs.length + 16) 0).run
    { rest := cs, referenceLimit := limit }
  if s.rest.isEmpty then return ⟨expr, s.opened⟩
  else throw .trailing

theorem Regex.Parsed.read_ofList (cs : List Char) : read (String.ofList cs) = readChars cs := by
  rw [read, String.toList_ofList]
  rfl

namespace Pattern

/-- The flags of a grammar as characters. -/
def flagChars (foldCase : Bool) : List Char :=
  if foldCase then ['(', '?', 'm', 'i', ')'] else ['(', '?', 'm', ')']

theorem flagged_ofList (cs : List Char) (foldCase : Bool) :
    flagged (String.ofList cs) foldCase = String.ofList (flagChars foldCase ++ cs) := by
  rw [flagged, String.ofList_append]
  cases foldCase <;> rfl

/-- A plain pattern that is read, alone and with the flags of a grammar, and takes so many characters
at least wherever it matches. -/
structure Takes (least : Nat) (foldCase : Bool) (source : String) : Prop where
  plain : Plain false source.toList
  alone : ∃ p, Parsed.read source = .ok p
  flagged : ∃ q, Parsed.read (flagged source foldCase) = .ok q ∧ least ≤ q.expr.leastTaken

theorem Takes.mono {least least' : Nat} {foldCase : Bool} {source : String}
    (h : Takes least foldCase source) (hle : least' ≤ least) : Takes least' foldCase source := by
  obtain ⟨q, hq, htaken⟩ := h.flagged
  exact ⟨h.plain, h.alone, q, hq, hle.trans htaken⟩

/-- Whether a pattern of these characters is plain and takes so many characters at least. -/
def takes (least : Nat) (foldCase : Bool) (cs : List Char) : Bool :=
  decide (Plain false cs) && (Parsed.readChars cs).isOk &&
    (Parsed.readChars (flagChars foldCase ++ cs)).toOption.any (least ≤ ·.expr.leastTaken)

theorem Takes.of_chars {least : Nat} {foldCase : Bool} (cs : List Char)
    (h : takes least foldCase cs) : Takes least foldCase (String.ofList cs) := by
  simp only [takes, Bool.and_eq_true, decide_eq_true_eq] at h
  obtain ⟨⟨hplain, halone⟩, hflagged⟩ := h
  obtain ⟨p, hp⟩ := exists_of_isOk halone
  obtain ⟨q, hq, hleast⟩ := exists_of_any hflagged
  refine ⟨by rwa [String.toList_ofList], ⟨p, by rw [Parsed.read_ofList, hp]⟩, q, ?_, ?_⟩
  · rw [flagged_ofList, Parsed.read_ofList, hq]
  · exact of_decide_eq_true hleast

/-- Patterns and their characters. -/
inductive Spelled : List String → List (List Char) → Prop where
  | nil : Spelled [] []
  | cons {cs : List Char} {sources : List String} {spellings : List (List Char)} :
      Spelled sources spellings → Spelled (String.ofList cs :: sources) (cs :: spellings)

/-- Whether patterns take so many characters is decided for all of them at once. -/
theorem Spelled.takes {least : Nat} {foldCase : Bool} {sources : List String}
    {spellings : List (List Char)} (h : Spelled sources spellings)
    (htakes : spellings.all (Pattern.takes least foldCase)) :
    ∀ s ∈ sources, Takes least foldCase s := by
  induction h with
  | nil => exact List.forall_mem_nil _
  | cons _ ih =>
    obtain ⟨hhead, htail⟩ := Bool.and_eq_true_iff.mp htakes
    exact List.forall_mem_cons.mpr ⟨.of_chars _ hhead, ih htail⟩

theorem Takes.append_of_chars {least : Nat} {foldCase : Bool} (cs ds : List Char)
    (h : takes least foldCase (cs ++ ds)) :
    Takes least foldCase (String.ofList cs ++ String.ofList ds) := by
  rw [← String.ofList_append]
  exact .of_chars _ h

/-- Patterns that may match the empty text: what stands for a begin or an end that is not given, and
the end of a line. -/
def fleeting : List String := ["\\B|\\b", "$"]

theorem takes_fleeting (foldCase : Bool) : ∀ s ∈ fleeting, Takes 0 foldCase s := by
  apply Spelled.takes
  · unfold fleeting
    repeat' constructor
  · cases foldCase <;> decide +kernel

end Pattern

variable {ρ : Type} [Engine ρ] {letters : Letters}

/-- A rule that has been looked over is accepted where patterns are read. -/
theorem Rule.accepted_sought (hρ : FindsFirst ρ letters) {foldCase : Bool} {r : Rule}
    (hchecked : Matcher.check ρ r.kind r.source = .ok r) (hr : Pattern.Takes 0 foldCase r.source) :
    r.Accepted (Sought letters) foldCase := by
  obtain ⟨p, hp⟩ := hr.alone
  obtain ⟨q, hq, -⟩ := hr.flagged
  refine ⟨?_, ⟨_, Sought.compile_eq hq⟩, hr.plain⟩
  unfold Matcher.check at hchecked ⊢
  rw [Sought.compile_eq hp]
  dsimp only
  split at hchecked
  · next re hre =>
    rw [← Except.ok.inj hchecked]
    change Except.ok (⟨_, _, p.groups⟩ : Rule) = _
    rw [hρ.groups hre hp]
  · cases hchecked

/-! ### Outlines -/

/-- The modes that may begin inside a mode without any text being taken: the text of their begin is
gone through again, or their pattern is not among those that take text. -/
def CompiledMode.atOnce (m : CompiledMode Unread) (taking : List String)
    (modes : Array (CompiledMode Unread)) : List Nat :=
  m.children.filter fun id => (modes[id]?).any (·.returnBegin) ||
    m.matcher.rules.any fun r => r.kind == .begins id && !taking.contains r.source

/-- Outlines of modes whose embedded code gets shorter: its language is guessed, and the mode that
holds it is neither the root nor a child. -/
structure Embedding (taking : List String) (modes : Array (CompiledMode Unread)) : Prop where
  detects : ∀ m ∈ modes, m.subLanguage.all (· matches .detect _)
  root : ∀ m ∈ modes[0]?, m.subLanguage = none ∧ m.atOnce taking modes = []
  children : ∀ m ∈ modes, ∀ id ∈ m.children, ∀ c ∈ modes[id]?, c.subLanguage = none
  skip : ∀ m ∈ modes, m.skip = false

/-- Outlines of modes from which it can be told that going through code ends, if these patterns take
text: of the modes that begin without any text being taken none begins inside another. -/
structure Surveyed (foldCase : Bool) (taking : List String) (modes : Array (CompiledMode Unread)) :
    Prop where
  foldCase : ∀ m ∈ modes, m.matcher.foldCase = foldCase
  sources : ∀ m ∈ modes, ∀ r ∈ m.matcher.rules, r.source ∈ taking ∨ r.source ∈ Pattern.fleeting
  takesOnce : ∀ m ∈ modes, m.TakesOnce
  returns : ∀ m ∈ modes, (m.returnEnd = true → m.children = []) ∧
    ∀ id ∈ m.children, ∀ c ∈ modes[id]?, c.returnEnd = false
  begins : ∀ m ∈ modes, ∀ id ∈ m.atOnce taking modes, ∀ c ∈ modes[id]?, c.atOnce taking modes = []
  embeds : (∀ m ∈ modes, m.subLanguage = none) ∨ Embedding taking modes

instance (taking : List String) (modes : Array (CompiledMode Unread)) :
    Decidable (Embedding taking modes) :=
  decidable_of_iff ((∀ m ∈ modes, m.subLanguage.all (· matches .detect _)) ∧
      (∀ m ∈ modes[0]?, m.subLanguage = none ∧ m.atOnce taking modes = []) ∧
      (∀ m ∈ modes, ∀ id ∈ m.children, ∀ c ∈ modes[id]?, c.subLanguage = none) ∧
      ∀ m ∈ modes, m.skip = false)
    ⟨fun ⟨hd, hr, hc, hs⟩ => ⟨hd, hr, hc, hs⟩, fun ⟨hd, hr, hc, hs⟩ => ⟨hd, hr, hc, hs⟩⟩

instance (foldCase : Bool) (taking : List String) (modes : Array (CompiledMode Unread)) :
    Decidable (Surveyed foldCase taking modes) :=
  decidable_of_iff ((∀ m ∈ modes, m.matcher.foldCase = foldCase) ∧
      (∀ m ∈ modes, ∀ r ∈ m.matcher.rules, r.source ∈ taking ∨ r.source ∈ Pattern.fleeting) ∧
      (∀ m ∈ modes, m.TakesOnce) ∧
      (∀ m ∈ modes, (m.returnEnd = true → m.children = []) ∧
        ∀ id ∈ m.children, ∀ c ∈ modes[id]?, c.returnEnd = false) ∧
      (∀ m ∈ modes, ∀ id ∈ m.atOnce taking modes, ∀ c ∈ modes[id]?, c.atOnce taking modes = []) ∧
      ((∀ m ∈ modes, m.subLanguage = none) ∨ Embedding taking modes))
    ⟨fun ⟨hf, hs, ht, hr, hb, he⟩ => ⟨hf, hs, ht, hr, hb, he⟩,
      fun ⟨hf, hs, ht, hr, hb, he⟩ => ⟨hf, hs, ht, hr, hb, he⟩⟩

namespace Language

variable {l : Language ρ}

/-- The outlines of the modes of a language. -/
def outlines (l : Language ρ) : Array (CompiledMode Unread) := l.modes.map CompiledMode.outline

theorem outline_mem {m : CompiledMode ρ} (hm : m ∈ l.modes) : m.outline ∈ l.outlines :=
  Array.mem_map_of_mem hm

theorem mem_outlines_getElem? {id : Nat} (h : id < l.size) :
    (l.mode id).outline ∈ l.outlines[id]? := by
  have hm := Language.mode?_eq_some h
  rw [Language.mode?] at hm
  rw [outlines, Array.getElem?_map, hm]
  rfl

section Surveyed

variable (hlawful : Engine.Lawful ρ) (hρ : FindsFirst ρ letters) {foldCase : Bool}
  {taking : List String} (hsurvey : Surveyed foldCase taking l.outlines)
  (htaking : ∀ s ∈ taking, Pattern.Takes 1 foldCase s)
  (hchecked : ∀ m ∈ l.modes, ∀ r ∈ m.matcher.rules, Matcher.check ρ r.kind r.source = .ok r)

include hρ hsurvey htaking hchecked

theorem accepted_of_surveyed {m : CompiledMode ρ} (hm : m ∈ l.modes) {r : Rule}
    (hr : r ∈ m.matcher.rules) : r.Accepted (Sought letters) m.matcher.foldCase := by
  have hfold : m.matcher.foldCase = foldCase := hsurvey.foldCase _ (outline_mem hm)
  have hsource : r.source ∈ taking ∨ r.source ∈ Pattern.fleeting :=
    hsurvey.sources _ (outline_mem hm) ⟨r.kind, r.source, 0⟩ (List.mem_map_of_mem hr)
  rw [hfold]
  refine Rule.accepted_sought hρ (hchecked m hm r hr) ?_
  rcases hsource with htakes | hfleeting
  · exact (htaking _ htakes).mono (Nat.zero_le 1)
  · exact Pattern.takes_fleeting foldCase _ hfleeting

include hlawful in
/-- **No text is lost** in a language whose patterns are read. -/
theorem lossless_of_surveyed : l.Lossless where
  lands m hm := ⟨Matcher.lands_of_read hρ fun _ hr =>
    accepted_of_surveyed hρ hsurvey htaking hchecked hm hr, fun _ _ => hlawful.follow⟩
  takesOnce m hm := by
    have houtline := hsurvey.takesOnce _ (outline_mem hm)
    exact ⟨houtline.begin_, houtline.end_⟩

/-- What begins without any text being taken can be told from the outlines. -/
theorem mem_atOnce (hlinking : l.Linking) {a b : Nat} (h : l.BeginsAtOnce a b) :
    b ∈ (l.mode a).outline.atOnce taking l.outlines := by
  obtain ⟨hchild, hreturn | ⟨first, text, offset, found, hsearch, hkind, hempty⟩⟩ := h
  · refine List.mem_filter.mpr ⟨hchild, Bool.or_eq_true_iff.mpr (Or.inl ?_)⟩
    have hb := mem_outlines_getElem? (hlinking.children hchild)
    rw [Option.mem_def.mp hb]
    exact hreturn
  · refine List.mem_filter.mpr ⟨hchild, Bool.or_eq_true_iff.mpr (Or.inr ?_)⟩
    refine Decidable.byContradiction fun hnone => ?_
    have hm := l.mode_mem a
    refine Matcher.lexeme_ne_empty hρ
      (fun r hr => accepted_of_surveyed hρ hsurvey htaking hchecked hm hr) (fun r hr hk => ?_)
      hsearch hempty
    have hfold : (l.mode a).matcher.foldCase = foldCase := hsurvey.foldCase _ (outline_mem hm)
    rw [hfold]
    refine (htaking r.source (Decidable.byContradiction fun hmem => hnone ?_)).flagged
    refine List.any_eq_true.mpr ⟨⟨r.kind, r.source, 0⟩, List.mem_map_of_mem hr, ?_⟩
    simp [hk, hkind, hmem]

/-- **Going through code ends** in a language whose modes do not begin one inside the other for ever
without any text being taken, and whose embedded code gets shorter. -/
theorem finishes_of_surveyed {g : Grammar} (hg : g.shelf.Ordered) {name : String}
    (hl : compile g name = .ok l) : l.Finishes := by
  have hlinking := linking_of_compile hl
  have hatOnce {a b : Nat} (h : l.BeginsAtOnce a b) :=
    mem_atOnce hρ hsurvey htaking hchecked hlinking h
  refine ⟨hlinking, nonempty_ranks hlinking (not_transGen_starts hl hg)
    (not_transGen_of_lt (fun id => ((l.mode id).outline.atOnce taking l.outlines).length)
      fun {a b} h => ?_), fun id hreturn => ⟨?_, fun p hp => ?_⟩, ?_⟩
  · have hnext := hsurvey.begins _ (outline_mem (l.mode_mem a)) b (hatOnce h) _
      (mem_outlines_getElem? (hlinking.children h.1))
    rw [hnext]
    exact List.length_pos_of_mem (hatOnce h)
  · exact (hsurvey.returns _ (outline_mem (l.mode_mem id))).1 hreturn
  · have hnone := (hsurvey.returns _ (outline_mem (l.mode_mem p))).2 id hp _
      (mem_outlines_getElem? (hlinking.children hp))
    exact Bool.false_ne_true (hnone.symm.trans hreturn)
  · refine hsurvey.embeds.imp (fun hnone m hm => hnone _ (outline_mem hm)) fun hembedding => ?_
    have hroot := hembedding.root _ (mem_outlines_getElem? l.size_pos)
    refine ⟨fun id d hd => ?_, hroot.1, fun p id hid => ?_, fun id hid => ?_, fun m hm => ?_⟩
    · have hdetect := hembedding.detects _ (outline_mem (l.mode_mem id))
      change (l.mode id).subLanguage.all _ = true at hdetect
      rw [hd] at hdetect
      cases d with
      | named name => cases hdetect
      | detect names => exact ⟨names, rfl⟩
    · exact hembedding.children _ (outline_mem (l.mode_mem p)) id hid _
        (mem_outlines_getElem? (hlinking.children hid))
    · have hmem := hatOnce hid
      rw [hroot.2] at hmem
      cases hmem
    · exact hembedding.skip _ (outline_mem hm)

end Surveyed

end Language

/-! ### Grammars -/

/-- A grammar of which can be told, whatever its keywords are and whatever engine it is compiled over,
that its language loses no text and that going through code in it ends. -/
structure Grammar.Sturdy (g : Grammar) (name : String) : Prop where
  ordered : g.shelf.Ordered
  worded : g.Worded
  surveyed : ∃ (taking : List String) (l : Language Unread),
    (∀ s ∈ taking, Pattern.Takes 1 g.caseInsensitive s) ∧
      Language.compile g.wordless name = .ok l ∧ Surveyed g.caseInsensitive taking l.outlines

theorem Grammar.Sturdy.of_survey {g : Grammar} {name : String} {taking : List String}
    (ordered : ∀ k < g.shelf.modes.size, ∀ n ∈ (g.shelf.mode k).starts, n < k) (worded : g.Worded)
    (htaking : ∀ s ∈ taking, Pattern.Takes 1 g.caseInsensitive s)
    (h : (Language.compile (ρ := Unread) g.wordless name).toOption.any fun l =>
      decide (Surveyed g.caseInsensitive taking l.outlines)) : g.Sturdy name := by
  obtain ⟨l, hl, hsurvey⟩ := exists_of_any h
  exact ⟨Shelf.ordered_of_forall ordered, worded, taking, l, htaking, hl, of_decide_eq_true hsurvey⟩

/-- The modes of the language are like those that are looked over without reading any pattern. -/
theorem Grammar.Sturdy.finishes_lossless (hlawful : Engine.Lawful ρ) (hρ : FindsFirst ρ letters)
    {g : Grammar} {name : String} (hg : g.Sturdy name) {l : Language ρ}
    (hl : Language.compile g name = .ok l) : l.Finishes ∧ l.Lossless := by
  obtain ⟨taking, l', htaking, hl', hsurvey⟩ := hg.surveyed
  obtain ⟨l'', hl'', hresembles⟩ := Language.exists_compile_resembles Unread.takesAll
    g.wordless_wordless.symm hg.worded.wordless hl
  obtain rfl : l' = l'' := Except.ok.inj (hl'.symm.trans hl'')
  have houtlines : l.outlines = l'.outlines := hresembles.outlines
  rw [← houtlines] at hsurvey
  exact ⟨Language.finishes_of_surveyed hρ hsurvey htaking hresembles.checked hg.ordered hl,
    Language.lossless_of_surveyed hlawful hρ hsurvey htaking hresembles.checked⟩

end CodeMarkup

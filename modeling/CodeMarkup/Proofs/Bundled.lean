import CodeMarkup.Bundled
import CodeMarkup.Proofs.Highlight.Contained
import CodeMarkup.Proofs.Highlight.Surveyed

/-! # The bundled languages

The modes and the patterns of the bundled languages are looked over: all patterns are read, and but for
those that may match the empty text they take a character wherever they match (`takes_patterns`); what
begins without any text being taken holds nothing that begins so, and what is embedded in XML only
follows a tag (`sturdy_grammars`). So whatever the code is, it is gone through to its end and comes out
in full, also from a stack on and where the language is guessed (`highlight_detect_bundled`). -/

namespace CodeMarkup

open Regex
open Text (Cursor)

namespace Bundled

/-! ### Registering -/

section Registering

variable {ρ : Type} [Engine ρ] {r r' : Registry ρ}

theorem built_registerAll : ∀ {gs : List (String × Grammar)} {r : Registry ρ}, r.Built →
    registerAll gs r = .ok r' → r'.Built
  | [], _, hr, h => by
    cases h
    exact hr
  | (name, g) :: gs, r, hr, h => by
    unfold registerAll at h
    split at h
    · cases h
    · next hnext => exact built_registerAll (.register hr hnext) h

/-- What holds of the languages of all these grammars holds of all languages that are registered. -/
theorem forall_registerAll {P : Language ρ → Prop} : ∀ {gs : List (String × Grammar)}
    {r : Registry ρ}, (∀ e ∈ gs, ∀ l, Language.compile e.2 e.1 = .ok l → P l) →
      (∀ e ∈ r.languages.entries, P e.2) → registerAll gs r = .ok r' →
        ∀ e ∈ r'.languages.entries, P e.2
  | [], _, _, hr, h => by
    cases h
    exact hr
  | (name, g) :: gs, r, hgs, hr, h => by
    obtain ⟨hg, hgs⟩ := List.forall_mem_cons.mp hgs
    unfold registerAll at h
    split at h
    · cases h
    · next hnext => exact forall_registerAll hgs (Registry.forall_register hnext hr hg) h

theorem contains_registerAll {key : String} : ∀ {gs : List (String × Grammar)} {r : Registry ρ},
    registerAll gs r = .ok r' →
      (r.languages.contains key ∨ ∃ e ∈ gs, Registry.fold e.1 = key) → r'.languages.contains key
  | [], _, h, hkey => by
    cases h
    exact hkey.resolve_right fun ⟨_, he, _⟩ => nomatch he
  | (name, g) :: gs, r, h, hkey => by
    unfold registerAll at h
    split at h
    · cases h
    · next next hnext =>
      refine contains_registerAll h ?_
      rcases hkey with hkey | ⟨e, he, rfl⟩
      · exact Or.inl (Registry.contains_register hnext hkey)
      · rcases List.mem_cons.mp he with rfl | he
        · obtain ⟨l, -, hl⟩ := Registry.resolve_of_register hnext
          have hfind := Registry.find?_of_resolve hl
          exact Or.inl (Option.isSome_of_eq_some hfind)
        · exact Or.inr ⟨e, he, rfl⟩

theorem exists_registerAll : ∀ {gs : List (String × Grammar)},
    (∀ e ∈ gs, ∃ l : Language ρ, Language.compile e.2 e.1 = .ok l) → ∀ r : Registry ρ,
      ∃ r', registerAll gs r = .ok r'
  | [], _, r => ⟨r, rfl⟩
  | (name, g) :: gs, hgs, r => by
    obtain ⟨⟨l, hl⟩, hgs⟩ := List.forall_mem_cons.mp hgs
    have hnext : r.register name g = .ok (r.put name l) := by rw [Registry.register, hl]
    rw [registerAll, hnext]
    exact exists_registerAll hgs (r.put name l)

end Registering

/-! ### Patterns -/

/-- The patterns of what is marked in comments. -/
def commentPatterns : List String := [Fragment.doctag, Fragment.phrasalWords]

/-- The other patterns of JSON that take text. -/
def jsonPatterns : List String :=
  ["\"", "(-?)(\\b0[xX][a-fA-F0-9]+|(\\b\\d+(\\.\\d*)?|\\.\\d+)([eE][-+]?\\d+)?)", "\\\x7b", "\\[",
    "//", "/\\*", "\\S", "\\\\[\\s\\S]", "\\n", ":", "\\\x7d", ",|\\\x7d", "\\]", ",|\\]", "\\*/"]

/-- The other patterns of INI files that take text. -/
def iniPatterns : List String :=
  ["([A-Za-z0-9_-]+|\"(\\\\\"|[^\"])*\"|'[^']*')" ++
      "(\\s*\\.\\s*([A-Za-z0-9_-]+|\"(\\\\\"|[^\"])*\"|'[^']*'))*(?=\\s*=\\s*[^#\\s])",
    ";", "#", "\\[+", "\\S", "\\]+", "\\[", "\\b(?:on|off|true|false|yes|no)\\b", "\\$[\\w\\d\"][\\w\\d_]*",
    "\\$\\\x7b(.*?)\\\x7d", "'''", "\"\"\"", "\"", "'", "([+-]+)?[\\d]+_[\\d_]+",
    "\\b\\d+(\\.\\d+)?", "\\]", "\\\\[\\s\\S]"]

/-- The other patterns of shell scripts that take text. -/
def bashPatterns : List String :=
  ["^#![ ]*/.*\\b(fish|bash|zsh|sh|csh|ksh|tcsh|dash|scsh)\\b.*", "^#![ ]*/",
    "\\w[\\w\\d_]*\\s*\\(\\s*\\)\\s*\\\x7b", "\\$\\(\\(", "#", "<<-?\\s*(?=\\w+)", "\"", "\\\\\"",
    "'", "\\$[\\w\\d#@][\\w\\d_]*(?![\\w\\d])(?![$])", "\\$\\\x7b", "\\w[\\w\\d_]*",
    "\\d+#[0-9a-f]+", "\\b\\d+(\\.\\d+)?", "\\)\\)", ":-", "\\\x7d", "(\\w+)", "\\\\[\\s\\S]",
    "\\$\\(", "\\)"]

/-- The other patterns of XML that take text. -/
def xmlPatterns : List String :=
  ["<![a-z]", "<!--", "<!\\[CDATA\\[", "&[a-z]+;|&#[0-9]+;|&#x[a-f0-9]+;", "<\\?xml",
    "<style(?=\\s|>)", "<script(?=\\s|>)", "<>|</>", "<(?=[A-Za-z0-9._:-]+(/>|>|\\s))",
    "</(?=[A-Za-z0-9._:-]+>)", "\\s", "\"", "'", "\\(", "\\[", ">", "#?[a-z_][a-z1-9_-]+", "\\n",
    "\\\\[\\s\\S]", "\\)", "\\]", "-->", "\\]\\]>", "\\?>", "[A-Z_a-z:][A-Z_a-z0-9:.-]*", "=\\s*",
    "<", "[^\\s\"'=<>`]+", "</style>", "</script>", "[A-Za-z0-9._:-]+", "/?>"]

theorem takes_commentPatterns (foldCase : Bool) :
    ∀ s ∈ commentPatterns, Pattern.Takes 1 foldCase s := by
  refine List.forall_mem_cons.mpr ⟨.of_chars _ ?_, List.forall_mem_cons.mpr
    ⟨.append_of_chars _ _ ?_, List.forall_mem_nil _⟩⟩
  all_goals cases foldCase <;> decide +kernel

/-- The other patterns take a character at least wherever they match. -/
theorem takes_patterns :
    (∀ s ∈ jsonPatterns, Pattern.Takes 1 false s) ∧ (∀ s ∈ iniPatterns, Pattern.Takes 1 true s) ∧
      (∀ s ∈ bashPatterns, Pattern.Takes 1 false s) ∧ ∀ s ∈ xmlPatterns, Pattern.Takes 1 true s := by
  refine ⟨?json, List.forall_mem_cons.mpr ⟨.append_of_chars _ _ (by decide +kernel), ?ini⟩, ?bash,
    ?xml⟩
  case json =>
    apply Pattern.Spelled.takes
    · unfold jsonPatterns
      repeat' constructor
    · decide +kernel
  case ini =>
    apply Pattern.Spelled.takes
    · repeat' constructor
    · decide +kernel
  case bash =>
    apply Pattern.Spelled.takes
    · unfold bashPatterns
      repeat' constructor
    · decide +kernel
  case xml =>
    apply Pattern.Spelled.takes
    · unfold xmlPatterns
      repeat' constructor
    · decide +kernel

/-! ### Words -/

/-- No word of the shells carries a weight. -/
theorem barless_bashWords : ∀ e ∈ bashWords.categories, ∀ word ∈ e.2, ∀ c ∈ word.toList, c ≠ '|' := by
  have hkeywords : ∀ c ∈ bashKeywords.toList, c ≠ '|' := Text.forall_mem_ofList (by decide +kernel)
  have hliterals : ∀ c ∈ bashLiterals.toList, c ≠ '|' := Text.forall_mem_ofList (by decide +kernel)
  have hbuiltIns : ∀ c ∈ bashBuiltIns.toList, c ≠ '|' := by
    unfold bashBuiltIns
    iterate 8 refine Text.forall_mem_append ?_ (Text.forall_mem_ofList (by decide +kernel))
    exact Text.forall_mem_ofList (by decide +kernel)
  have hcategories : bashWords.categories = [("keyword", Text.words bashKeywords),
      ("literal", Text.words bashLiterals), ("built_in", Text.words bashBuiltIns)] := rfl
  rw [hcategories]
  simp only [List.forall_mem_cons]
  exact ⟨Text.forall_mem_words hkeywords, Text.forall_mem_words hliterals,
    Text.forall_mem_words hbuiltIns, List.forall_mem_nil _⟩

theorem worded_bash : bash.Worded where
  root := by
    refine ⟨rfl, rfl, fun k hk => ?_⟩
    obtain rfl : bashWords = k := Option.some.inj hk
    exact KeywordTable.exists_compile fun e he word hword hbar =>
      barless_bashWords e he word hword '|' hbar rfl
  shelf := by decide +kernel

/-! ### Grammars -/

/-- **The bundled grammars are sturdy.** -/
theorem sturdy_grammars : ∀ e ∈ grammars, e.2.Sturdy e.1 := by
  obtain ⟨hjson, hini, hbash, hxml⟩ := takes_patterns
  refine List.forall_mem_cons.mpr ⟨?plaintext, List.forall_mem_cons.mpr ⟨?json,
    List.forall_mem_cons.mpr ⟨?ini, List.forall_mem_cons.mpr ⟨?bash,
      List.forall_mem_cons.mpr ⟨?xml, List.forall_mem_nil _⟩⟩⟩⟩⟩
  case plaintext =>
    exact .of_survey (by decide) (by decide) (List.forall_mem_nil _) (by decide +kernel)
  case json =>
    exact .of_survey (by decide +kernel) (by decide +kernel)
      (List.forall_mem_append.mpr ⟨takes_commentPatterns false, hjson⟩) (by decide +kernel)
  case ini =>
    exact .of_survey (by decide +kernel) (by decide +kernel)
      (List.forall_mem_append.mpr ⟨takes_commentPatterns true, hini⟩) (by decide +kernel)
  case bash =>
    exact .of_survey (by decide +kernel) worded_bash
      (List.forall_mem_append.mpr ⟨takes_commentPatterns false, hbash⟩) (by decide +kernel)
  case xml =>
    exact .of_survey (by decide +kernel) (by decide +kernel)
      (List.forall_mem_append.mpr ⟨takes_commentPatterns true, hxml⟩) (by decide +kernel)

/-- **The bundled languages can be registered** over every engine that takes all patterns. -/
theorem exists_register_bundled {ρ : Type} [Engine ρ] (hρ : Engine.TakesAll ρ) (r : Registry ρ) :
    ∃ r', register r = .ok r' := by
  refine exists_registerAll (fun e he => ?_) r
  have hg := sturdy_grammars e he
  obtain ⟨taking, l, -, hl, -⟩ := hg.surveyed
  obtain ⟨l', hl', -⟩ := Language.exists_compile_resembles hρ e.2.wordless_wordless hg.worded hl
  exact ⟨l', hl'⟩

/-! ### Highlighting -/

/-- **The bundled languages survive every code.** Over every engine that finds what the first way to
match gives, or gives up, code in a bundled language comes out in safe mode when texts that cannot
occur are lived with, from whatever stack it goes on, and nothing of it is lost; and the same goes for
guessing its language among them. -/
theorem highlight_detect_bundled {ρ : Type} [Engine ρ] (hlawful : Engine.Lawful ρ)
    {letters : Letters} (hρ : FindsFirst ρ letters) {r : Registry ρ}
    (hr : register .empty = .ok r) (o : Options) (hsafe : o.safeMode = true) (code : String) :
    (∀ name ∈ names, (r.resolve name).isSome) ∧
    (∀ name continuation, (r.resolve name).isSome →
      ∃ out, highlight r o name code true continuation = .ok out ∧
        (out.build Markup.Tree o.classPrefix).content = code) ∧
    ∀ subset, ∃ d, detect r o code subset = .ok d ∧
      (d.best.build Markup.Tree o.classPrefix).content = code ∧
        ∀ p, d.runnerUp = some p → (p.build Markup.Tree o.classPrefix).content = code := by
  have hbuilt : r.Built := built_registerAll .empty hr
  have hlanguages : ∀ e ∈ r.languages.entries, e.2.Finishes ∧ e.2.Lossless :=
    forall_registerAll (fun e he l hl => (sturdy_grammars e he).finishes_lossless hlawful hρ hl)
      (List.forall_mem_nil _) hr
  have hlossless : r.Lossless := fun e he => (hlanguages e he).2
  have hends := highlight_detect_ne_unfinished hlawful hlossless
    (fun e he => (hlanguages e he).1) o code
  have hsafety : ∀ name ignoreIllegals continuation, (r.resolve name).isSome →
      IsSafe o.classPrefix code ignoreIllegals
        (highlight r o name code ignoreIllegals continuation) :=
    fun name => isSafe_highlightWithin hsafe hbuilt o.classPrefix (nestingBound r code) name code
  refine ⟨fun name hname => ?_, fun name continuation hname => ?_, fun subset => ?_⟩
  · obtain ⟨e, he, rfl⟩ := List.mem_map.mp hname
    exact Registry.isSome_resolve_of_contains (contains_registerAll hr (Or.inr ⟨e, he, rfl⟩))
  · have hs := hsafety name true continuation hname
    cases h : highlight r o name code true continuation with
    | ok out => exact ⟨out, rfl, (reports_highlight hlossless h).content _⟩
    | error p =>
      rw [h] at hs
      -- in safe mode a failure is a run without end, or illegal code that is not lived with
      rcases hs with rfl | ⟨-, hstrict⟩
      · exact absurd h (hends.1 name true continuation)
      · cases hstrict
  · cases h : detect r o code subset with
    | ok d =>
      obtain ⟨hbest, hnext⟩ := forall_detectWith (Outcome.holdsPlain_reports code)
        (fun name out ho => reports_highlight hlossless ho) h
      exact ⟨d, rfl, hbest.content _, fun p hp => (hnext p hp).content _⟩
    | error p =>
      obtain ⟨name, hmem, hgo, hlegal⟩ := error_detectWith h
      have hs := hsafety name false none (isSome_resolve_of_mem_candidates hbuilt hmem)
      rw [hgo] at hs
      rcases hs with rfl | ⟨hillegal, -⟩
      · exact absurd h (hends.2 subset)
      · rw [hlegal] at hillegal
        cases hillegal

end Bundled

/-! ### An engine that takes all patterns -/

/-- A pattern to be searched for by going through the ways in which it matches, if it can be read. -/
structure Regex.Willing where
  source : String

instance : Engine Willing where
  compile source := .ok ⟨source⟩
  groupCount re := ((Parsed.read re.source).toOption.map Parsed.groups).getD 0
  search re text offset :=
    .ok ((Parsed.read re.source).toOption.bind fun p =>
      (Text.splitAt? text offset).bind fun (before, after) =>
        p.search .standard (Cursor.between before after))
  occurrences re text :=
    .ok (((Parsed.read re.source).toOption.map fun p =>
      Tried.spansFrom p (2 * text.length + 2) none (Cursor.start text)).getD [])

theorem Regex.Willing.takesAll : Engine.TakesAll (Checked Willing) := fun source => ⟨⟨⟨source⟩⟩, rfl⟩

theorem Regex.Willing.findsFirst : FindsFirst (Checked Willing) .standard where
  groups {source re p} hre hp := by
    obtain rfl : (⟨⟨source⟩⟩ : Checked Willing) = re := Except.ok.inj hre
    change ((Parsed.read source).toOption.map Parsed.groups).getD 0 = p.groups
    rw [hp]
    rfl
  search {source re text offset c} hre hc := by
    obtain rfl : (⟨⟨source⟩⟩ : Checked Willing) = re := Except.ok.inj hre
    have hfound := (Option.filter_eq_some_iff.mp (Except.ok.inj hc)).1
    obtain ⟨p, hp, hfound⟩ := Option.bind_eq_some_iff.mp hfound
    obtain ⟨⟨before, after⟩, hsplit, hfound⟩ := Option.bind_eq_some_iff.mp hfound
    refine ⟨p, before, after, ?_, (Text.append_of_splitAt? hsplit).symm,
      Text.byteSize_of_splitAt? hsplit, hfound⟩
    change (Parsed.read source).toOption = some p at hp
    cases hread : Parsed.read source with
    | error fault => rw [hread] at hp; cases hp
    | ok q =>
      rw [hread] at hp
      exact congrArg Except.ok (Option.some.inj hp)

/-- A script in a document comes out in full. -/
theorem Bundled.highlight_detect_bundled_script :
    ∃ (r : Registry (Checked Willing)) (out : Outcome (Checked Willing))
      (d : Detection (Checked Willing)), Bundled.register .empty = .ok r ∧
      highlight r {} "xml" "<p>&lt;<script>f()</script></p>" true none = .ok out ∧
      (out.build Markup.Tree "hljs-").content = "<p>&lt;<script>f()</script></p>" ∧
      detect r {} "<p>&lt;<script>f()</script></p>" none = .ok d ∧
      (d.best.build Markup.Tree "hljs-").content = "<p>&lt;<script>f()</script></p>" := by
  obtain ⟨r, hr⟩ := Bundled.exists_register_bundled Willing.takesAll .empty
  obtain ⟨hnames, hhighlight, hdetect⟩ := Bundled.highlight_detect_bundled
    (Checked.lawful Willing) Willing.findsFirst hr {} rfl "<p>&lt;<script>f()</script></p>"
  obtain ⟨out, hout, hcontent⟩ := hhighlight "xml" none (hnames "xml" (by decide))
  obtain ⟨d, hd, hbest, -⟩ := hdetect none
  exact ⟨r, out, d, hr, hout, hcontent, hd, hbest⟩

end CodeMarkup

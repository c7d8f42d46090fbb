import CodeMarkup.Proofs.Language.Registered
import Mathlib

/-! # Keywords that are declared well

A table of keywords only fails to compile for the weight that a word carries behind a bar, so it
compiles where no word has a bar in it (`KeywordTable.exists_compile`), as where the words are those of
a text without bars. A grammar with such keywords, none of them declared by what begins a mode, is
taken as far as its words go (`Grammar.Worded`). -/

namespace CodeMarkup

/-! ### Words of a text -/

section Chars

variable {P : Char → Prop}

theorem Text.forall_mem_append {s t : String} (hs : ∀ c ∈ s.toList, P c)
    (ht : ∀ c ∈ t.toList, P c) : ∀ c ∈ (s ++ t).toList, P c := by
  rw [String.toList_append]
  exact List.forall_mem_append.mpr ⟨hs, ht⟩

theorem Text.forall_mem_ofList [DecidablePred P] {cs : List Char} (h : cs.all (P ·)) :
    ∀ c ∈ (String.ofList cs).toList, P c := by
  intro c hc
  rw [String.toList_ofList] at hc
  exact of_decide_eq_true (List.all_eq_true.mp h c hc)

end Chars

/-- What holds of the characters of a text holds of those of its words. -/
theorem Text.forall_mem_words {P : Char → Prop} {s : String} (h : ∀ c ∈ s.toList, P c) :
    ∀ word ∈ words s, ∀ c ∈ word.toList, P c := by
  have hclose {word : List Char} {done : List String} (hword : ∀ c ∈ word, P c)
      (hdone : ∀ w ∈ done, ∀ c ∈ w.toList, P c) :
      ∀ w ∈ (if word.isEmpty then done else String.ofList word.reverse :: done),
        ∀ c ∈ w.toList, P c := by
    split
    · exact hdone
    · refine List.forall_mem_cons.mpr ⟨fun c hc => ?_, hdone⟩
      rw [String.toList_ofList, List.mem_reverse] at hc
      exact hword c hc
  -- the characters of the word that is being read and of the words that have been
  have hfold (read : List Char × List String → Char → List Char × List String)
      (hread : ∀ word done c, read (word, done) c =
        if isBlank c then ([], if word.isEmpty then done else String.ofList word.reverse :: done)
        else (c :: word, done)) :
      ∀ (cs word : List Char) (done : List String), (∀ c ∈ cs, P c) → (∀ c ∈ word, P c) →
        (∀ w ∈ done, ∀ c ∈ w.toList, P c) →
        (∀ c ∈ (cs.foldl read (word, done)).1, P c) ∧
          ∀ w ∈ (cs.foldl read (word, done)).2, ∀ c ∈ w.toList, P c := by
    intro cs
    induction cs with
    | nil => exact fun word done _ hword hdone => ⟨hword, hdone⟩
    | cons c cs ih =>
      intro word done hcs hword hdone
      obtain ⟨hc, hcs⟩ := List.forall_mem_cons.mp hcs
      rw [List.foldl_cons, hread]
      split
      · exact ih [] _ hcs (by simp) (hclose hword hdone)
      · exact ih (c :: word) done hcs (List.forall_mem_cons.mpr ⟨hc, hword⟩) hdone
  intro w hw
  refine hclose ?_ ?_ w (List.mem_reverse.mp hw)
  · exact (hfold _ (fun _ _ _ => rfl) s.toList [] [] h (by simp) (by simp)).1
  · exact (hfold _ (fun _ _ _ => rfl) s.toList [] [] h (by simp) (by simp)).2

/-! ### Tables -/

namespace KeywordTable

variable {foldCase : Bool}

theorem splitBar_of_not_mem : ∀ {cs : List Char}, '|' ∉ cs → splitBar cs = (cs, none)
  | [], _ => rfl
  | c :: cs, h => by
    obtain ⟨hc, hcs⟩ := not_or.mp (mt List.mem_cons.mpr h)
    rw [splitBar, splitBar_of_not_mem hcs]
    exact fun he => hc he.symm

theorem exists_entry (category : String) {word : String}
    (h : '|' ∉ (folded foldCase word).toList) :
    ∃ e, entry foldCase category word = .ok e := by
  unfold entry
  rw [splitBar_of_not_mem h]
  exact ⟨_, rfl⟩

/-- **Keywords without bars make a table.** -/
theorem exists_compile {k : Keywords}
    (h : ∀ e ∈ k.categories, ∀ word ∈ e.2, '|' ∉ (folded foldCase word).toList) :
    ∃ t, compile foldCase k = .ok t := by
  have hentries : ∀ ds : List (String × String), (∀ d ∈ ds, '|' ∉ (folded foldCase d.2).toList) →
      ∃ es, ds.mapM (fun d : String × String => entry foldCase d.1 d.2) = .ok es := by
    intro ds
    induction ds with
    | nil => exact fun _ => ⟨[], rfl⟩
    | cons d ds ih =>
      intro hds
      obtain ⟨hd, hds⟩ := List.forall_mem_cons.mp hds
      obtain ⟨e, he⟩ := exists_entry d.1 hd
      obtain ⟨es, hes⟩ := ih hds
      rw [List.mapM_cons, he, hes]
      exact ⟨e :: es, rfl⟩
  obtain ⟨es, hes⟩ := hentries (declarations k) fun d hd => by
    obtain ⟨e, he, hd⟩ := List.mem_flatMap.mp hd
    obtain ⟨word, hword, rfl⟩ := List.mem_map.mp hd
    exact h e he word hword
  unfold compile
  rw [hes]
  exact ⟨_, rfl⟩

end KeywordTable

/-! ### Grammars -/

/-- A mode whose keywords are all declared as such, and well. -/
structure Mode.Worded (foldCase : Bool) (m : Mode) : Prop where
  begins : m.beginKeywords = none
  lexemes : m.lexemes = none
  keywords : ∀ k, m.keywords = some k → ∃ t, KeywordTable.compile foldCase k = .ok t

/-- A grammar whose keywords are all declared as such, and well. -/
structure Grammar.Worded (g : Grammar) : Prop where
  root : g.root.Worded g.caseInsensitive
  shelf : ∀ m ∈ g.shelf.modes, m.Worded g.caseInsensitive

namespace Mode

variable {foldCase : Bool} {m base overlay : Mode}

instance : Decidable (m.Worded foldCase) :=
  decidable_of_iff (m.beginKeywords = none ∧ m.lexemes = none ∧
      ∀ k ∈ m.keywords, (KeywordTable.compile foldCase k).isOk) <| by
    refine ⟨fun ⟨hb, hl, hk⟩ => ⟨hb, hl, fun k h => ?_⟩, fun ⟨hb, hl, hk⟩ => ⟨hb, hl, fun k h => ?_⟩⟩
    · exact exists_of_isOk (hk k h)
    · obtain ⟨t, ht⟩ := hk k h
      rw [ht]
      rfl

theorem worded_default : ({} : Mode).Worded foldCase := ⟨rfl, rfl, nofun⟩

theorem Worded.merge (hbase : base.Worded foldCase) (hoverlay : overlay.Worded foldCase) :
    (base.merge overlay).Worded foldCase where
  begins := by rw [Mode.merge, hbase.begins, hoverlay.begins]; rfl
  lexemes := by rw [Mode.merge, hbase.lexemes, hoverlay.lexemes]; rfl
  keywords k hk := by
    rw [Mode.merge] at hk
    cases ho : overlay.keywords with
    | none =>
      rw [ho] at hk
      exact hbase.keywords k hk
    | some k' =>
      rw [ho] at hk
      exact hoverlay.keywords k (ho.trans hk)

/-- Words that are declared well are taken. -/
theorem Worded.exists_words (h : m.Worded foldCase) :
    ∃ source, Language.wordSource m m.keywords = .ok source ∧
      ∃ table, m.keywords.mapM (KeywordTable.compile foldCase) = .ok table := by
  unfold Language.wordSource
  rw [h.lexemes]
  cases hk : m.keywords with
  | none => exact ⟨_, rfl, none, rfl⟩
  | some k =>
    obtain ⟨t, ht⟩ := h.keywords k hk
    refine ⟨k.pattern.getD Language.defaultWordPattern, ?_, some t, by rw [Option.mapM_some, ht]; rfl⟩
    rw [Option.bind_some]
    cases k.pattern <;> rfl

end Mode

instance (g : Grammar) : Decidable g.Worded :=
  decidable_of_iff (g.root.Worded g.caseInsensitive ∧
      ∀ m ∈ g.shelf.modes, m.Worded g.caseInsensitive)
    ⟨fun ⟨hr, hs⟩ => ⟨hr, hs⟩, fun ⟨hr, hs⟩ => ⟨hr, hs⟩⟩

theorem Grammar.Worded.mode {g : Grammar} (h : g.Worded) (key : Key) :
    (g.shelf.mode key).Worded g.caseInsensitive := by
  unfold Shelf.mode
  cases hm : g.shelf.modes[key]? with
  | none => exact Mode.worded_default
  | some m => exact h.shelf m (Array.mem_of_getElem? hm)

end CodeMarkup

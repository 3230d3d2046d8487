import Costar.Settings
import Mathlib.Data.List.DropRight
import Mathlib.Logic.Function.Basic

/-!
# The list of origins

The origins that pages may be served from are given in one text, with commas between them.  Blanks
around an origin do not belong to it, and a piece that is all blank is none.  So a text gives a list
of proper origins, whatever it is, and every such list is given by each text that spells it.

Main results:

- Theorem `Text.splitAt_eq_splitOn`: the pieces of a text between separators.
- Theorem `Text.trim_eq_iff`: what is left of a text without the blanks around it.
- Structure `Settings.IsOrigin`: what it is for a text to be a proper origin.
- Definition `Settings.Spells`: which pieces spell a list of origins.
- Theorem `Settings.filterMap_originIn?_eq`: the origins in some pieces are those that they spell.
- Theorem `Settings.origins_loaded`: which origins are loaded from a text.
-/

namespace Costar

/-! ## Pieces of a text -/

namespace Text

/-- The pieces of a text between separators, as the library defines them. -/
theorem splitAt_eq_splitOn (separator : Char) (cs : List Char) :
    splitAt separator cs = cs.splitOn separator := by
  induction cs with
  | nil => rfl
  | cons c cs ih =>
      rw [splitAt, List.splitOn_cons_eq_if_modifyHead, ih]
      by_cases hc : c = separator
      · simp [hc]
      · cases hpieces : cs.splitOn separator with
        | nil => exact absurd hpieces (List.splitOn_ne_nil separator cs)
        | cons piece pieces => simp [hc]

/-- No piece holds a separator. -/
theorem not_mem_of_mem_splitAt {separator : Char} {cs piece : List Char}
    (h : piece ∈ splitAt separator cs) : separator ∉ piece := by
  induction cs generalizing piece with
  | nil =>
      obtain rfl := List.mem_singleton.mp h
      exact List.not_mem_nil
  | cons c cs ih =>
      rw [splitAt] at h
      split at h
      · rcases List.mem_cons.mp h with rfl | h
        · exact List.not_mem_nil
        · exact ih h
      · rename_i hc
        split at h
        · obtain rfl := List.mem_singleton.mp h
          simpa using Ne.symm hc
        · rename_i first rest hsplit
          rw [hsplit] at ih
          rcases List.mem_cons.mp h with rfl | h
          · rw [List.mem_cons, not_or]
            exact ⟨Ne.symm hc, ih List.mem_cons_self⟩
          · exact ih (List.mem_cons_of_mem _ h)

/-! ## Blanks around a text -/

/-- Whether all characters of a text are blank. -/
def AllBlank (cs : List Char) : Prop :=
  ∀ c ∈ cs, isBlank c = true

/-- Whether a text neither begins nor ends with a blank. -/
structure Trimmed (cs : List Char) : Prop where
  head : ∀ c ∈ cs.head?, isBlank c = false
  last : ∀ c ∈ cs.getLast?, isBlank c = false

variable {cs ts : List Char}

theorem trimmed_iff : Trimmed cs ↔ (∀ c ∈ cs.head?.toList, isBlank c = false) ∧
    ∀ c ∈ cs.getLast?.toList, isBlank c = false := by
  simp only [Option.mem_toList]
  constructor
  · rintro ⟨hhead, hlast⟩
    exact ⟨hhead, hlast⟩
  · rintro ⟨hhead, hlast⟩
    exact ⟨hhead, hlast⟩

-- The characters are looked through one by one: there is also an instance that would try them all.
instance (cs : List Char) : Decidable (AllBlank cs) :=
  List.decidableBAll (fun c => isBlank c = true) cs

instance (cs : List Char) : Decidable (Trimmed cs) :=
  have := List.decidableBAll (fun c => isBlank c = false) cs.head?.toList
  have := List.decidableBAll (fun c => isBlank c = false) cs.getLast?.toList
  decidable_of_iff _ trimmed_iff.symm

theorem AllBlank.nil : AllBlank [] := by
  intro c hc
  cases hc

/-- A text is blanks around what is left of it without them. -/
theorem exists_trim (cs : List Char) :
    ∃ before after, AllBlank before ∧ AllBlank after ∧ cs = before ++ trim cs ++ after := by
  refine ⟨cs.takeWhile isBlank, ((cs.dropWhile isBlank).reverse.takeWhile isBlank).reverse,
    fun c hc => List.mem_takeWhile_imp hc, ?_, ?_⟩
  · intro c hc
    exact List.mem_takeWhile_imp (List.mem_reverse.mp hc)
  · have hrest : trim cs ++ ((cs.dropWhile isBlank).reverse.takeWhile isBlank).reverse =
        cs.dropWhile isBlank := by
      rw [trim, trimBy, ← List.reverse_append, List.takeWhile_append_dropWhile, List.reverse_reverse]
    rw [List.append_assoc, hrest, List.takeWhile_append_dropWhile]

/-- What is left of a text without the blanks around it has none around it. -/
theorem trimmed_trim (cs : List Char) : Trimmed (trim cs) := by
  have hprefix : trim cs <+: cs.dropWhile isBlank :=
    List.rdropWhile_prefix isBlank _
  constructor
  · intro c hc
    have hhead : c ∈ (cs.dropWhile isBlank).head? := by
      rcases hprefix with ⟨after, hafter⟩
      rw [← hafter, List.head?_append, hc]
      rfl
    have hnot := List.head?_dropWhile_not isBlank cs
    rw [hhead] at hnot
    exact hnot
  · intro c hc
    rw [trim, trimBy, List.getLast?_reverse] at hc
    have hnot := List.head?_dropWhile_not isBlank (cs.dropWhile isBlank).reverse
    rw [hc] at hnot
    exact hnot

/-- Blanks that are put around a text are taken off again. -/
theorem trim_of_blanks {before after : List Char} (hts : Trimmed ts) (hbefore : AllBlank before)
    (hafter : AllBlank after) : trim (before ++ ts ++ after) = ts := by
  rw [trim, trimBy, List.append_assoc, List.dropWhile_append_of_pos hbefore]
  cases ts with
  | nil => simp [List.dropWhile_eq_nil_iff.mpr hafter]
  | cons c rest =>
      have hc : isBlank c = false := hts.head c rfl
      rw [List.cons_append, List.dropWhile_cons_of_neg (by simp [hc]), ← List.cons_append,
        List.reverse_append,
        List.dropWhile_append_of_pos fun d hd => hafter d (List.mem_reverse.mp hd)]
      -- What comes first in the reversed text is its last character, which is not blank.
      exact List.rdropWhile_eq_self_iff.mpr fun hne => by
        simp [hts.last _ (List.getLast?_eq_some_getLast hne)]

/-- What is left of a text without the blanks around it is what has none around it and makes the
text with some. -/
theorem trim_eq_iff : trim cs = ts ↔ Trimmed ts ∧
    ∃ before after, AllBlank before ∧ AllBlank after ∧ cs = before ++ ts ++ after := by
  constructor
  · rintro rfl
    exact ⟨trimmed_trim cs, exists_trim cs⟩
  · rintro ⟨hts, before, after, hbefore, hafter, rfl⟩
    exact trim_of_blanks hts hbefore hafter

/-- Nothing is left of a text that is all blank, and of no other. -/
theorem trim_eq_nil : trim cs = [] ↔ AllBlank cs := by
  rw [trim_eq_iff]
  constructor
  · rintro ⟨-, before, after, hbefore, hafter, rfl⟩
    intro c hc
    rw [List.append_nil] at hc
    rcases List.mem_append.mp hc with hc | hc
    · exact hbefore c hc
    · exact hafter c hc
  · intro h
    exact ⟨⟨nofun, nofun⟩, cs, [], h, AllBlank.nil, by simp⟩

end Text

/-! ## Origins in pieces -/

namespace Settings

open Text (AllBlank Trimmed)

/-- Whether a text can be an origin in a list: it is not empty, holds no comma, and neither begins
nor ends with a blank. -/
structure IsOrigin (s : String) : Prop where
  nonempty : s ≠ ""
  noComma : ',' ∉ s.toList
  trimmed : Trimmed s.toList

/-- Which pieces spell a list of origins: each piece holds the next origin, with blanks around it,
or is all blank. -/
inductive Spells : List String → List String → Prop where
  | nil : Spells [] []
  | blank {piece : String} {pieces origins : List String} (hpiece : AllBlank piece.toList)
      (hrest : Spells pieces origins) : Spells (piece :: pieces) origins
  | origin {before origin after : String} {pieces origins : List String}
      (hbefore : AllBlank before.toList) (hafter : AllBlank after.toList)
      (hrest : Spells pieces origins) :
      Spells ((before ++ origin ++ after) :: pieces) (origin :: origins)

/-- The origin that a piece holds, if it is not all blank. -/
def originIn? (piece : String) : Option String :=
  if (Text.trim piece.toList).isEmpty then none else some (String.ofList (Text.trim piece.toList))

theorem originIn?_eq_none {piece : String} :
    originIn? piece = none ↔ AllBlank piece.toList := by
  rw [← Text.trim_eq_nil, originIn?]
  simp

theorem originIn?_eq_some {piece origin : String} :
    originIn? piece = some origin ↔ (origin ≠ "" ∧ Trimmed origin.toList) ∧
      ∃ before after : String, AllBlank before.toList ∧ AllBlank after.toList ∧
        piece = before ++ origin ++ after := by
  have htrim : originIn? piece = some origin ↔
      origin ≠ "" ∧ Text.trim piece.toList = origin.toList := by
    unfold originIn?
    constructor
    · intro h
      split at h
      · cases h
      · rename_i hne
        cases h
        exact ⟨by simpa using hne, by simp⟩
    · rintro ⟨hne, heq⟩
      rw [heq, if_neg (by simpa using hne), String.ofList_toList]
  rw [htrim, Text.trim_eq_iff, and_assoc]
  refine and_congr_right fun _ => and_congr_right fun _ => ?_
  constructor
  · rintro ⟨before, after, hbefore, hafter, heq⟩
    refine ⟨String.ofList before, String.ofList after, by simpa using hbefore,
      by simpa using hafter, ?_⟩
    rw [← String.toList_inj, heq]
    simp
  · rintro ⟨before, after, hbefore, hafter, rfl⟩
    exact ⟨before.toList, after.toList, hbefore, hafter, by simp⟩

/-- The origins in some pieces are those that the pieces spell. -/
theorem filterMap_originIn?_eq {pieces origins : List String} :
    pieces.filterMap originIn? = origins ↔
      Spells pieces origins ∧ ∀ o ∈ origins, o ≠ "" ∧ Trimmed o.toList := by
  constructor
  · rintro rfl
    induction pieces with
    | nil => exact ⟨.nil, by simp⟩
    | cons piece pieces ih =>
        rcases ih with ⟨hspells, hall⟩
        cases hpiece : originIn? piece with
        | none =>
            rw [List.filterMap_cons_none hpiece]
            exact ⟨.blank (originIn?_eq_none.mp hpiece) hspells, hall⟩
        | some origin =>
            rcases originIn?_eq_some.mp hpiece with ⟨horigin, before, after, hbefore, hafter, rfl⟩
            rw [List.filterMap_cons_some hpiece]
            exact ⟨.origin hbefore hafter hspells, List.forall_mem_cons.mpr ⟨horigin, hall⟩⟩
  · rintro ⟨hspells, hall⟩
    induction hspells with
    | nil => rfl
    | blank hpiece _ ih =>
        rw [List.filterMap_cons_none (originIn?_eq_none.mpr hpiece), ih hall]
    | @origin before origin after pieces origins hbefore hafter _ ih =>
        rcases List.forall_mem_cons.mp hall with ⟨horigin, hrest⟩
        have hpiece : originIn? (before ++ origin ++ after) = some origin :=
          originIn?_eq_some.mpr ⟨horigin, before, after, hbefore, hafter, rfl⟩
        rw [List.filterMap_cons_some hpiece, ih hrest]

/-- Pieces that spell origins without commas hold no comma themselves. -/
theorem Spells.noComma {pieces origins : List String} (h : Spells pieces origins)
    (hall : ∀ o ∈ origins, ',' ∉ o.toList) : ∀ p ∈ pieces, ',' ∉ p.toList := by
  have hblank : ∀ {cs : List Char}, AllBlank cs → ',' ∉ cs := by
    intro cs hcs hmem
    exact absurd (hcs ',' hmem) (by decide)
  induction h with
  | nil => exact hall
  | blank hpiece _ ih => exact List.forall_mem_cons.mpr ⟨hblank hpiece, ih hall⟩
  | origin hbefore hafter _ ih =>
      rcases List.forall_mem_cons.mp hall with ⟨horigin, hrest⟩
      refine List.forall_mem_cons.mpr ⟨?_, ih hrest⟩
      simp [hblank hbefore, horigin, hblank hafter]

/-- A piece without commas holds an origin without commas. -/
theorem noComma_of_originIn? {piece origin : String} (h : originIn? piece = some origin)
    (hpiece : ',' ∉ piece.toList) : ',' ∉ origin.toList := by
  rcases originIn?_eq_some.mp h with ⟨-, before, after, -, -, rfl⟩
  intro hmem
  exact hpiece (by simp [hmem])

/-! ## Origins in a text -/

/-- The origins that a text gives are those in its pieces between commas. -/
theorem originsOf_eq (text : String) :
    originsOf text = ((text.toList.splitOn ',').map String.ofList).filterMap originIn? := by
  rw [originsOf, Text.splitAt_eq_splitOn, List.filterMap_map, List.filterMap_map]
  refine List.filterMap_congr fun piece _ => ?_
  simp [originIn?]

theorem originsOf_intercalate {pieces : List String} (h : ∀ p ∈ pieces, ',' ∉ p.toList) :
    originsOf (",".intercalate pieces) = pieces.filterMap originIn? := by
  cases pieces with
  | nil => rfl
  | cons piece rest =>
      have hsplit : (",".intercalate (piece :: rest)).toList.splitOn ',' =
          (piece :: rest).map String.toList := by
        rw [String.toList_intercalate]
        exact List.splitOn_intercalate ',' (List.forall_mem_map.mpr h) (by simp)
      rw [originsOf_eq, hsplit, List.map_map]
      simp [Function.comp_def]

/-- Every text is made of pieces without commas. -/
theorem exists_pieces (text : String) :
    ∃ pieces : List String, pieces ≠ [] ∧ (∀ p ∈ pieces, ',' ∉ p.toList) ∧
      ",".intercalate pieces = text := by
  refine ⟨(text.toList.splitOn ',').map String.ofList, by simp, ?_, ?_⟩
  · rw [List.forall_mem_map]
    intro piece hpiece
    rw [← Text.splitAt_eq_splitOn] at hpiece
    simpa using Text.not_mem_of_mem_splitAt hpiece
  · rw [← String.toList_inj, String.toList_intercalate, List.map_map]
    have hmap : String.toList ∘ String.ofList = id := funext fun cs => String.toList_ofList
    rw [hmap, List.map_id]
    exact List.intercalate_splitOn ','

/-! ## Loaded settings -/

variable {env : Environment} {s : Settings}

/-- The text of the origins has no part in the other settings, nor in whether settings can be
loaded. -/
theorem load_update (env : Environment) (text : String) :
    load (Function.update env "CORS_ORIGINS" (some text)) =
      (load env).map fun s => { s with origins := originsOf text } := by
  unfold load
  simp only [Function.update_apply, String.reduceEq, if_false, if_true, Option.getD_some]
  cases Numeral.decimal ((env "QUERY_TIMEOUT_SECONDS").getD "30") with
  | error e => rfl
  | ok queryTimeout =>
      cases Numeral.int ((env "ENRICHMENT_CONCURRENCY").getD "8") with
      | error e => rfl
      | ok concurrency =>
          cases Numeral.int ((env "SUGGESTION_LIMIT").getD "5") with
          | error e => rfl
          | ok suggestionLimit => cases Numeral.int ((env "API_PORT").getD "8000") <;> rfl

/-- Where settings can be loaded they can be loaded with any text for the origins.  The text is made
of pieces between commas, and the origins that are loaded are the proper ones that these pieces
spell; and proper origins are loaded from every text whose pieces spell them. -/
theorem origins_loaded {env : Environment} {s : Settings} (h : load env = .ok s) :
    (∀ text, ∃ pieces origins, pieces ≠ [] ∧ (∀ p ∈ pieces, ',' ∉ p.toList) ∧
      ",".intercalate pieces = text ∧ Spells pieces origins ∧ (∀ o ∈ origins, IsOrigin o) ∧
      load (Function.update env "CORS_ORIGINS" (some text)) = .ok { s with origins }) ∧
    ∀ pieces origins, (∀ o ∈ origins, IsOrigin o) → Spells pieces origins →
      load (Function.update env "CORS_ORIGINS" (some (",".intercalate pieces))) =
        .ok { s with origins } := by
  simp only [load_update, h]
  constructor
  · intro text
    rcases exists_pieces text with ⟨pieces, hne, hcomma, rfl⟩
    rcases filterMap_originIn?_eq.mp (originsOf_intercalate hcomma).symm with ⟨hspells, hall⟩
    refine ⟨pieces, originsOf (",".intercalate pieces), hne, hcomma, rfl, hspells, ?_, rfl⟩
    intro o ho
    refine ⟨(hall o ho).1, ?_, (hall o ho).2⟩
    rw [originsOf_intercalate hcomma] at ho
    rcases List.mem_filterMap.mp ho with ⟨piece, hpiece, horigin⟩
    exact noComma_of_originIn? horigin (hcomma piece hpiece)
  · intro pieces origins hall hspells
    have hcomma := hspells.noComma fun o ho => (hall o ho).noComma
    have horigins : pieces.filterMap originIn? = origins :=
      filterMap_originIn?_eq.mpr ⟨hspells, fun o ho => ⟨(hall o ho).nonempty, (hall o ho).trimmed⟩⟩
    rw [originsOf_intercalate hcomma, horigins]
    rfl

/-- Pieces with two origins, the first of them with blanks around it, and without an origin before,
between and behind these. -/
def spacedPieces : List String :=
  ["", "\t " ++ "https://a.example" ++ " ", "\n", "" ++ "https://b.example" ++ "", " "]

/-- The two origins are loaded from the text of `spacedPieces`, where all else is left to its
default. -/
theorem origins_loaded_spacedPieces :
    ",".intercalate spacedPieces = ",\t https://a.example ,\n,https://b.example, " ∧
      (∀ o ∈ ["https://a.example", "https://b.example"], IsOrigin o) ∧
      Spells spacedPieces ["https://a.example", "https://b.example"] ∧
      ∃ s, load (fun _ => none) = .ok s ∧
        load (Function.update (fun _ => none) "CORS_ORIGINS" (some (",".intercalate spacedPieces))) =
          .ok { s with origins := ["https://a.example", "https://b.example"] } := by
  have horigins : ∀ o ∈ ["https://a.example", "https://b.example"], IsOrigin o := by
    rw [List.forall_mem_cons, List.forall_mem_singleton]
    constructor <;> exact ⟨by decide, by decide, by decide⟩
  have hspells : Spells spacedPieces ["https://a.example", "https://b.example"] := by
    have hsecond : Spells ["" ++ "https://b.example" ++ "", " "] ["https://b.example"] :=
      .origin (by decide) (by decide) (.blank (by decide) .nil)
    exact .blank (by decide) (.origin (by decide) (by decide) (.blank (by decide) hsecond))
  obtain ⟨s, hs⟩ : ∃ s, load (fun _ => none) = .ok s := ⟨_, rfl⟩
  refine ⟨by decide, horigins, hspells, s, hs, ?_⟩
  exact (origins_loaded hs).2 _ _ horigins hspells

end Settings

end Costar

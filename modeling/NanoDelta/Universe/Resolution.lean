import Mathlib
import NanoDelta.Library.NormalForms
import NanoDelta.Library.Table
import NanoDelta.Universe.Nse

/-!
# Security ids of the universe

What the builder makes of a file of symbols and a master. The loader and the resolver each take one `-EQ` from the end
of a symbol, and a symbol that is resolved is looked up as the loader left it. In upper case a normal form is shorter
than the symbol or the symbol itself, so that all symbols are found only if each of them is its own normal form.

* `loadNseSymbols_ok`: what the loader makes sure of.
* `resolve_cases`, `resolve_perm`: what the resolver finds, in any order of the master's rows.
* `built_is_right_iff`: what the client has of the instruments.
* `universe_is_right_iff`: when the builder does what it is meant to do.
-/

namespace NanoDelta.Universe

open Library Providers History

/-! ### Texts in upper case -/

/-- What the documentation says of `text.upper()`: it replaces the characters one by one, none by nothing and none that
is not blank by a blank, and leaves what it put there as it is. -/
structure Uppercases (reader : Reader) (upperOf : Char → List Char) : Prop where
  toList_upper : ∀ text, (reader.upper text).toList = text.toList.flatMap upperOf
  ne_nil : ∀ c, upperOf c ≠ []
  not_space : ∀ c, isSpace c = false → ∀ d ∈ upperOf c, isSpace d = false
  upper_upper : ∀ c, ∀ d ∈ upperOf c, upperOf d = [d]

/-- A text in upper case. -/
def InUpperCase (upperOf : Char → List Char) (text : String) : Prop := ∀ c ∈ text.toList, upperOf c = [c]

theorem toList_strip (text : String) : (strip text).toList = trim isSpace text.toList := String.toList_ofList

theorem isInfix_strip (text : String) : (strip text).toList <:+: text.toList := by
  rw [toList_strip]
  exact isInfix_trim

@[simp] theorem strip_strip (text : String) : strip (strip text) = strip text := by
  apply String.toList_inj.mp
  rw [toList_strip, toList_strip, trim_trim]

theorem isPrefix_removesuffix (text suffix : String) : (removesuffix text suffix).toList <+: text.toList := by
  unfold removesuffix
  split_ifs
  · rw [String.toList_ofList]
    exact List.take_prefix ..
  · exact List.prefix_rfl

theorem inUpperCase_strip {upperOf : Char → List Char} {text : String} (h : InUpperCase upperOf text) :
    InUpperCase upperOf (strip text) := by
  intro c hc
  exact h c ((isInfix_strip text).subset hc)

section Upper

variable {reader : Reader} {upperOf : Char → List Char} (hupper : Uppercases reader upperOf)

include hupper

/-- A text in upper case stays as it is. -/
theorem upper_eq_self {text : String} (h : InUpperCase upperOf text) : reader.upper text = text := by
  apply String.toList_inj.mp
  rw [hupper.toList_upper]
  have hall : ∀ cs : List Char, (∀ c ∈ cs, upperOf c = [c]) → cs.flatMap upperOf = cs := by
    intro cs hcs
    induction cs with
    | nil => rfl
    | cons c cs ih =>
      rw [List.flatMap_cons, hcs c (List.mem_cons_self ..), ih fun c' hc' => hcs c' (List.mem_cons_of_mem _ hc')]
      rfl
  exact hall _ h

theorem inUpperCase_upper (text : String) : InUpperCase upperOf (reader.upper text) := by
  intro d hd
  rw [hupper.toList_upper] at hd
  obtain ⟨c, -, hdc⟩ := List.mem_flatMap.mp hd
  exact hupper.upper_upper c d hdc

/-- A text that does not begin with a blank does not in upper case. -/
theorem upper_cons {text : String} {c : Char} {rest : List Char} (htext : text.toList = c :: rest)
    (hc : isSpace c = false) :
    ∃ d rest', (reader.upper text).toList = d :: rest' ∧ isSpace d = false := by
  obtain ⟨d, more, hcons⟩ := List.exists_cons_of_ne_nil (hupper.ne_nil c)
  refine ⟨d, more ++ rest.flatMap upperOf, ?_, hupper.not_space c hc d ?_⟩
  · rw [hupper.toList_upper, htext, List.flatMap_cons, hcons]
    rfl
  · rw [hcons]
    exact List.mem_cons_self ..

/-- The normal form of a text in upper case is part of it. -/
theorem isPrefix_symbolOf {text : String} (h : InUpperCase upperOf text) :
    (symbolOf reader text).toList <+: (strip text).toList := by
  unfold symbolOf
  rw [upper_eq_self hupper (inUpperCase_strip h)]
  exact isPrefix_removesuffix ..

/-- It is shorter, or the text itself. -/
theorem symbolOf_shorter {text : String} (h : InUpperCase upperOf text) (hne : symbolOf reader text ≠ text) :
    (symbolOf reader text).toList.length < text.toList.length := by
  have hpart := (isPrefix_symbolOf hupper h).isInfix.trans (isInfix_strip text)
  apply lt_of_le_of_ne hpart.length_le
  intro hlength
  exact hne (String.toList_inj.mp (hpart.eq_of_length hlength))

/-- A text that is its own normal form has no blanks at its ends. -/
theorem strip_of_normal {text : String} (h : InUpperCase upperOf text) (hnormal : symbolOf reader text = text) :
    strip text = text := by
  have hpre := isPrefix_symbolOf hupper h
  have hinfix := isInfix_strip text
  apply String.toList_inj.mp
  apply hinfix.eq_of_length
  have hle := hpre.length_le
  rw [hnormal] at hle
  exact le_antisymm hinfix.length_le hle

end Upper

/-! ### The symbols that are loaded -/

/-- What the loader makes sure of. -/
structure Loaded (upperOf : Char → List Char) (specs : List NseSymbolSpec) : Prop where
  nodup : (specs.map NseSymbolSpec.symbol).Nodup
  inUpperCase : ∀ spec ∈ specs, InUpperCase upperOf spec.symbol
  head : ∀ spec ∈ specs, ∃ c rest, spec.symbol.toList = c :: rest ∧ isSpace c = false
  securityId : ∀ spec ∈ specs, ∀ securityId ∈ spec.securityId, securityId ≠ "" ∧ strip securityId = securityId
  timeframes : ∀ spec ∈ specs, ∀ timeframe ∈ spec.timeframes, timeframe ∈ supportedHistoryTimeframes

section Loading

variable {host : Host} {reader : Reader} {upperOf : Char → List Char}

/-- The values of a cleaned row have no blanks at their ends. -/
theorem stripped_of_cleaned {raw : Row} {row : Dict String String} (h : cleaned reader raw = .ok row)
    {name value : String} (hvalue : row.get? name = some value) : strip value = value := by
  unfold cleaned at h
  split_ifs at h
  cases h
  obtain ⟨e, -, -, rfl⟩ := Dict.exists_of_get?_foldl_last hvalue
  exact strip_strip _

/-- **A row that is loaded.** -/
theorem loadRow_ok (hupper : Uppercases reader upperOf) {seen : List String} {line : ℕ} {row : Dict String String}
    (hrow : ∀ name value, row.get? name = some value → strip value = value) {spec : NseSymbolSpec}
    (h : loadRow host reader seen line row = .ok (some spec)) : spec.symbol ∉ seen ∧ Loaded upperOf [spec] := by
  unfold loadRow at h
  dsimp only at h
  split_ifs at h with _ _ hblank hseen _ hsupported
  · cases h
  cases h
  obtain ⟨text, htext⟩ : ∃ text, (row.get? "symbol").getD "" = text := ⟨_, rfl⟩
  have hstrip : strip text = text := by
    rw [← htext]
    cases hsymbol : row.get? "symbol" with
    | none => rfl
    | some value => exact hrow _ _ hsymbol
  rw [htext] at hblank hseen
  have hpre := isPrefix_removesuffix (reader.upper text) "-EQ"
  refine ⟨by rwa [htext], ?_⟩
  constructor
  · simp
  · intro spec hspec c hc
    rw [List.mem_singleton.mp hspec, htext] at hc
    exact inUpperCase_upper hupper text c (hpre.subset hc)
  · intro spec hspec
    rw [List.mem_singleton.mp hspec, htext]
    obtain ⟨c, rest, hcons⟩ := List.exists_cons_of_ne_nil (fun hnil => hblank (String.toList_inj.mp hnil))
    refine ⟨c, rest, hcons, ?_⟩
    rw [hcons] at hpre
    cases hchars : text.toList with
    | nil =>
      rw [hupper.toList_upper, hchars] at hpre
      cases List.prefix_nil.mp hpre
    | cons b more =>
      have hb : isSpace b = false := head_trim (by rw [← toList_strip, hstrip, hchars])
      obtain ⟨d, rest', hup, hd⟩ := upper_cons hupper hchars hb
      rw [hup] at hpre
      rwa [(List.cons_prefix_cons.mp hpre).1]
  · intro spec hspec securityId hid
    rw [List.mem_singleton.mp hspec] at hid
    obtain ⟨hvalue, hne⟩ := Option.filter_eq_some_iff.mp hid
    exact ⟨of_decide_eq_true hne, hrow _ _ hvalue⟩
  · intro spec hspec timeframe htimeframe
    rw [List.mem_singleton.mp hspec] at htimeframe
    by_contra hnot
    have hmem : timeframe ∈ ((timeframesOf reader ((row.get? "timeframes").getD "5m|15m|1h|1d")).filter fun timeframe =>
        timeframe ∉ supportedHistoryTimeframes).dedup :=
      List.mem_dedup.mpr (List.mem_filter.mpr ⟨htimeframe, by simpa using hnot⟩)
    rw [not_not.mp hsupported] at hmem
    cases hmem

theorem Loaded.append {specs : List NseSymbolSpec} {spec : NseSymbolSpec} (h : Loaded upperOf specs)
    (hspec : Loaded upperOf [spec]) (hnew : spec.symbol ∉ specs.map NseSymbolSpec.symbol) :
    Loaded upperOf (specs ++ [spec]) := by
  have hor {P : NseSymbolSpec → Prop} (h₁ : ∀ s ∈ specs, P s) (h₂ : ∀ s ∈ [spec], P s) : ∀ s ∈ specs ++ [spec], P s :=
    fun s hs => (List.mem_append.mp hs).elim (h₁ s) (h₂ s)
  refine ⟨?_, hor h.inUpperCase hspec.inUpperCase, hor h.head hspec.head, hor h.securityId hspec.securityId,
    hor h.timeframes hspec.timeframes⟩
  exact Table.nodup_concat h.nodup fun r hr he => hnew (List.mem_map.mpr ⟨r, hr, he⟩)

theorem loadRows_ok (hupper : Uppercases reader upperOf) {rows : List Row} {line : ℕ}
    {result specs : List NseSymbolSpec} (h : loadRows host reader rows line result = .ok specs)
    (hresult : Loaded upperOf result) : Loaded upperOf specs := by
  induction rows generalizing line result with
  | nil =>
    cases h
    exact hresult
  | cons raw rows ih =>
    obtain ⟨row, hrow, h₁⟩ := Effect.except_bind_eq_ok.mp h
    obtain ⟨loaded, hloaded, h₂⟩ := Effect.except_bind_eq_ok.mp h₁
    cases loaded with
    | none => exact ih h₂ hresult
    | some spec =>
      obtain ⟨hnew, hspec⟩ := loadRow_ok hupper (fun _ _ => stripped_of_cleaned hrow) hloaded
      exact ih h₂ (hresult.append hspec hnew)

/-- **What is loaded** has different symbols in upper case, and security ids without blanks. -/
theorem loadNseSymbols_ok (hupper : Uppercases reader upperOf) {path : String} {file : Option Table}
    {specs : List NseSymbolSpec} (h : loadNseSymbols host reader path file = .ok specs) :
    specs ≠ [] ∧ Loaded upperOf specs := by
  unfold loadNseSymbols at h
  cases file with
  | none => cases h
  | some table =>
    dsimp only at h
    split_ifs at h
    obtain ⟨result, hresult, h₁⟩ := Effect.except_bind_eq_ok.mp h
    have hloaded : Loaded upperOf result := by
      apply loadRows_ok hupper hresult
      constructor <;> simp
    split_ifs at h₁ with hnil
    · cases h₁
    · cases h₁
      exact ⟨hnil, hloaded⟩

end Loading

/-! ### What the master has -/

/-- A security id that the master has for a symbol: that of an NSE equity row with the normal form of the symbol among
its names. -/
def Candidate (reader : Reader) (master : Table) (symbol securityId : String) : Prop :=
  securityId ≠ "" ∧ ∃ row ∈ master.rows, isNseEquity reader row = true ∧ securityIdOfRow row = securityId ∧
    symbolOf reader symbol ∈ aliases reader row

section Resolving

variable {reader : Reader}

/-- What a row adds to the matches of a symbol that is asked for. -/
def matchOf (reader : Reader) (e : String × String) (row : Row) : List DhanInstrument :=
  if isNseEquity reader row = true ∧ securityIdOfRow row ≠ "" ∧ e.1 ∈ aliases reader row then
    [⟨symbolOf reader e.2, securityIdOfRow row, "NSE_EQ", "EQUITY"⟩]
  else []

theorem get?_matchRow {requested : Dict String String} {e : String × String} (he : e ∈ requested.entries)
    (found : Dict String (List DhanInstrument)) (row : Row) :
    ((matchRow reader requested found row).get? e.1).getD [] = (found.get? e.1).getD [] ++ matchOf reader e row := by
  have hfold : ∀ (es : List (String × String)) (found : Dict String (List DhanInstrument)),
      ((es.foldl (fun found e => found.set e.1 ((found.get? e.1).getD [] ++
        [⟨symbolOf reader e.2, securityIdOfRow row, "NSE_EQ", "EQUITY"⟩])) found).get? e.1).getD [] =
        (found.get? e.1).getD [] ++ (es.filter fun e' => e'.1 = e.1).map fun e =>
          (⟨symbolOf reader e.2, securityIdOfRow row, "NSE_EQ", "EQUITY"⟩ : DhanInstrument) := by
    intro es
    induction es with
    | nil => simp
    | cons e' es ih =>
      intro found
      rw [List.foldl_cons, ih, Dict.get?_set]
      by_cases he' : e'.1 = e.1
      · simp [he']
      · simp [he', Ne.symm he']
  unfold matchRow matchOf
  by_cases hequity : isNseEquity reader row = true
  · by_cases hid : securityIdOfRow row = ""
    · simp [hid]
    · have hsingle : requested.entries.filter (fun e' => e'.1 = e.1) = [e] :=
        Table.filter_eq_singleton requested.nodup he
      by_cases halias : e.1 ∈ aliases reader row
      · rw [if_neg (by simp [hequity, hid]), if_pos ⟨hequity, hid, halias⟩, hfold, List.filter_filter]
        have hboth : (requested.entries.filter fun e' =>
            decide (e'.1 = e.1) && decide (e'.1 ∈ aliases reader row)) = [e] := by
          rw [← List.filter_filter, List.filter_comm, hsingle]
          simp [halias]
        rw [hboth]
        rfl
      · rw [if_neg (by simp [hequity, hid]), if_neg (fun h => halias h.2.2), hfold, List.filter_filter]
        have hnone : (requested.entries.filter fun e' =>
            decide (e'.1 = e.1) && decide (e'.1 ∈ aliases reader row)) = [] := by
          rw [← List.filter_filter, List.filter_comm, hsingle]
          simp [halias]
        rw [hnone]
        rfl
  · simp [hequity]

/-- The matches of a symbol are those of the rows, in their order. -/
theorem get?_matches {requested : Dict String String} {e : String × String} (he : e ∈ requested.entries)
    (rows : List Row) (found : Dict String (List DhanInstrument)) :
    ((rows.foldl (matchRow reader requested) found).get? e.1).getD [] =
      (found.get? e.1).getD [] ++ rows.flatMap (matchOf reader e) := by
  induction rows generalizing found with
  | nil => simp
  | cons row rows ih => rw [List.foldl_cons, ih, get?_matchRow he, List.flatMap_cons, List.append_assoc]

/-- They have the security ids of the master. -/
theorem mem_matches {master : Table} {e : String × String} (he : symbolOf reader e.2 = e.1) {item : DhanInstrument} :
    item ∈ master.rows.flatMap (matchOf reader e) ↔
      item = ⟨symbolOf reader e.2, item.securityId, "NSE_EQ", "EQUITY"⟩ ∧
        Candidate reader master e.2 item.securityId := by
  unfold matchOf Candidate
  rw [List.mem_flatMap, he]
  constructor
  · rintro ⟨row, hrow, hitem⟩
    split_ifs at hitem with hmatch
    · obtain ⟨hequity, hid, halias⟩ := hmatch
      rw [List.mem_singleton.mp hitem]
      exact ⟨rfl, hid, row, hrow, hequity, rfl, halias⟩
    · cases hitem
  · rintro ⟨hitem, hid, row, hrow, hequity, hrowid, halias⟩
    refine ⟨row, hrow, ?_⟩
    rw [if_pos ⟨hequity, hrowid ▸ hid, halias⟩, hrowid, hitem]
    exact List.mem_singleton.mpr rfl

/-! ### The choice -/

/-- Matches that differ in their security ids only. -/
def Uniform (found : List DhanInstrument) : Prop := ∀ a ∈ found, ∀ b ∈ found, a.securityId = b.securityId → a = b

theorem mem_values_uniqueOf {found : List DhanInstrument} (huniform : Uniform found) {item : DhanInstrument} :
    item ∈ (uniqueOf found).values ↔ item ∈ found := by
  unfold Dict.values
  rw [List.mem_map]
  constructor
  · rintro ⟨e, he, rfl⟩
    obtain ⟨a, ha, -, hvalue⟩ := Dict.exists_of_get?_foldl_last (Dict.get?_eq_some_iff.mpr he)
    exact hvalue ▸ ha
  · intro hitem
    obtain ⟨last, hlast⟩ := Dict.exists_get?_foldl_last DhanInstrument.securityId id hitem
    obtain ⟨a, ha, hkey, hvalue⟩ := Dict.exists_of_get?_foldl_last hlast
    have hsame := huniform a ha item hitem hkey
    exact ⟨_, Dict.get?_eq_some_iff.mp hlast, by rw [← hsame]; exact hvalue.symm⟩

theorem nodup_values_uniqueOf {found : List DhanInstrument} : (uniqueOf found).values.Nodup := by
  have hkeys := (uniqueOf found).nodup
  have hsame : (uniqueOf found).values.map DhanInstrument.securityId = (uniqueOf found).entries.map Prod.fst := by
    unfold Dict.values
    rw [List.map_map]
    apply List.map_congr_left
    intro e he
    obtain ⟨a, -, hkey, hvalue⟩ := Dict.exists_of_get?_foldl_last (Dict.get?_eq_some_iff.mpr he)
    rw [Function.comp_apply, ← hvalue]
    exact hkey
  rw [← hsame] at hkeys
  exact hkeys.of_map _

/-- **What is chosen**: the only match; none and several are errors. -/
theorem chosen_cases (original : String) {found : List DhanInstrument} (huniform : Uniform found) :
    (found = [] ∧ chosen original found =
      .error (.lookupError ("NSE symbol not found in Dhan instrument master: " ++ original))) ∨
    (∃ item, (∀ item', item' ∈ found ↔ item' = item) ∧ chosen original found = .ok item) ∨
    ((∃ a ∈ found, ∃ b ∈ found, a.securityId ≠ b.securityId) ∧ chosen original found =
      .error (.valueError ("NSE symbol is ambiguous in Dhan instrument master: " ++ original))) := by
  have hmem {item : DhanInstrument} : item ∈ (uniqueOf found).values ↔ item ∈ found := mem_values_uniqueOf huniform
  have hnodup : (uniqueOf found).values.Nodup := nodup_values_uniqueOf
  unfold chosen
  generalize (uniqueOf found).values = values at hmem hnodup
  match values with
  | [] =>
    left
    exact ⟨List.eq_nil_iff_forall_not_mem.mpr fun item hitem => (nomatch hmem.mpr hitem), rfl⟩
  | [item] =>
    right; left
    exact ⟨item, fun item' => hmem.symm.trans List.mem_singleton, rfl⟩
  | a :: b :: rest =>
    right; right
    have ha := hmem.mp (List.mem_cons_self ..)
    have hb := hmem.mp (List.mem_cons_of_mem _ (List.mem_cons_self ..))
    refine ⟨⟨a, ha, b, hb, ?_⟩, rfl⟩
    intro hid
    rw [huniform a ha b hb hid] at hnodup
    exact (List.nodup_cons.mp hnodup).1 (List.mem_cons_self ..)

/-- The order of the matches does not matter. -/
theorem chosen_perm (original : String) {found found' : List DhanInstrument} (hperm : found.Perm found')
    (huniform : Uniform found) : chosen original found = chosen original found' := by
  have huniform' : Uniform found' := fun a ha b hb => huniform a (hperm.mem_iff.mpr ha) b (hperm.mem_iff.mpr hb)
  rcases chosen_cases original huniform with ⟨hnil, h⟩ | ⟨item, honly, h⟩ | ⟨⟨a, ha, b, hb, hne⟩, h⟩
  all_goals rcases chosen_cases original huniform' with
    ⟨hnil', h'⟩ | ⟨item', honly', h'⟩ | ⟨⟨a', ha', b', hb', hne'⟩, h'⟩
  all_goals rw [h, h']
  · rw [hnil] at hperm
    exact absurd (hperm.mem_iff.mpr ((honly' item').mpr rfl)) List.not_mem_nil
  · rw [hnil] at hperm
    exact absurd (hperm.mem_iff.mpr ha') List.not_mem_nil
  · rw [hnil'] at hperm
    exact absurd (hperm.mem_iff.mp ((honly item).mpr rfl)) List.not_mem_nil
  · rw [(honly' item).mp (hperm.mem_iff.mp ((honly item).mpr rfl))]
  · have haa := (honly a').mp (hperm.mem_iff.mpr ha')
    have hbb := (honly b').mp (hperm.mem_iff.mpr hb')
    exact absurd (by rw [haa, hbb]) hne'
  · rw [hnil'] at hperm
    exact absurd (hperm.mem_iff.mp ha) List.not_mem_nil
  · have haa := (honly' a).mp (hperm.mem_iff.mp ha)
    have hbb := (honly' b).mp (hperm.mem_iff.mp hb)
    exact absurd (by rw [haa, hbb]) hne

theorem uniform_matches (master : Table) {e : String × String} (he : symbolOf reader e.2 = e.1) :
    Uniform (master.rows.flatMap (matchOf reader e)) := by
  intro a ha b hb hid
  rw [((mem_matches he).mp ha).1, ((mem_matches he).mp hb).1, hid]

/-! ### The resolver -/

/-- What `resolve` does with the symbols that are asked for. -/
def resolveEach (reader : Reader) (master : Table) (entries : List (String × String))
    (resolved : Dict String DhanInstrument) : Except PyError (Dict String DhanInstrument) :=
  entries.foldlM (fun resolved e => do
    let item ← chosen e.2 (master.rows.flatMap (matchOf reader e))
    return resolved.set (symbolOf reader e.2) item) resolved

theorem mem_requestedOf {symbols : List String} {e : String × String} (he : e ∈ (requestedOf reader symbols).entries) :
    e.2 ∈ symbols ∧ symbolOf reader e.2 = e.1 := by
  obtain ⟨symbol, hsymbol, hkey, hvalue⟩ := Dict.exists_of_get?_foldl_last (Dict.get?_eq_some_iff.mpr he)
  exact ⟨hvalue ▸ hsymbol, hvalue ▸ hkey⟩

theorem exists_requestedOf {symbols : List String} {symbol : String} (h : symbol ∈ symbols) :
    ∃ e ∈ (requestedOf reader symbols).entries, e.1 = symbolOf reader symbol := by
  obtain ⟨original, horiginal⟩ := Dict.exists_get?_foldl_last (symbolOf reader) id h
  exact ⟨_, Dict.get?_eq_some_iff.mp horiginal, rfl⟩

theorem resolve_eq {symbols : List String} {master : Table} (h : master.fieldnames ≠ none) :
    resolve reader symbols master = resolveEach reader master (requestedOf reader symbols).entries .empty := by
  unfold resolve resolveEach
  rw [if_neg h]
  apply Effect.foldlM_congr
  intro resolved e he
  rw [get?_matches he, Dict.get?_mapValues, Dict.get?_eq_some_iff.mpr he]
  rfl

/-- Candidates do not depend on how a symbol is spelled. -/
theorem candidate_congr {master : Table} {symbol symbol' : String}
    (h : symbolOf reader symbol = symbolOf reader symbol') {securityId : String} :
    Candidate reader master symbol securityId ↔ Candidate reader master symbol' securityId := by
  unfold Candidate
  rw [h]

/-- **The order of the master's rows does not matter.** -/
theorem resolve_perm {symbols : List String} {master master' : Table} (hfield : master'.fieldnames = master.fieldnames)
    (hperm : master'.records.Perm master.records) : resolve reader symbols master' = resolve reader symbols master := by
  by_cases hnone : master.fieldnames = none
  · unfold resolve
    rw [hfield, if_pos hnone, if_pos hnone]
  · rw [resolve_eq hnone, resolve_eq (hfield ▸ hnone)]
    apply Effect.foldlM_congr
    intro resolved e he
    have hrows : master'.rows.Perm master.rows := by
      unfold Table.rows
      rw [hfield]
      exact (hperm.filter _).map _
    rw [chosen_perm e.2 (hrows.flatMap_right _) (uniform_matches master' (mem_requestedOf he).2)]

/-- `isinstance(e, LookupError)`. -/
def IsLookupError : PyError → Prop
  | .lookupError _ | .keyError _ | .indexError _ => True
  | _ => False

/-- Why a symbol is not resolved: the master has no security id for it, or several. A master without a header has none
for any symbol. -/
def Unresolved (reader : Reader) (master : Table) (symbols : List String) (e : PyError) : Prop :=
  (IsLookupError e ∧ ∃ symbol ∈ symbols, ∀ securityId, ¬ Candidate reader master symbol securityId) ∨
  ((∃ message, e = .valueError message) ∧ (master.fieldnames = none ∨ ∃ symbol ∈ symbols, ∃ a b, a ≠ b ∧
    Candidate reader master symbol a ∧ Candidate reader master symbol b))

/-- An instrument that has the only security id of a symbol. -/
def OnlyOne (reader : Reader) (master : Table) (symbol : String) (item : DhanInstrument) : Prop :=
  ∀ securityId, Candidate reader master symbol securityId ↔ securityId = item.securityId

/-- The choice, in terms of the master. -/
theorem chosen_matches (master : Table) {e : String × String} (he : symbolOf reader e.2 = e.1) :
    (∃ item, chosen e.2 (master.rows.flatMap (matchOf reader e)) = .ok item ∧ OnlyOne reader master e.2 item) ∨
    ∃ error, chosen e.2 (master.rows.flatMap (matchOf reader e)) = .error error ∧
      Unresolved reader master [e.2] error := by
  have hcandidate {securityId : String} (h : Candidate reader master e.2 securityId) :
      (⟨symbolOf reader e.2, securityId, "NSE_EQ", "EQUITY"⟩ : DhanInstrument) ∈
        master.rows.flatMap (matchOf reader e) :=
    (mem_matches he).mpr ⟨rfl, h⟩
  rcases chosen_cases e.2 (uniform_matches master he) with ⟨hnil, h⟩ | ⟨item, honly, h⟩ | ⟨⟨a, ha, b, hb, hne⟩, h⟩
  · right
    refine ⟨_, h, Or.inl ⟨trivial, e.2, List.mem_singleton.mpr rfl, ?_⟩⟩
    intro securityId hid
    have := hcandidate hid
    rw [hnil] at this
    cases this
  · left
    refine ⟨item, h, ?_⟩
    intro securityId
    constructor
    · intro hid
      rw [← (honly _).mp (hcandidate hid)]
    · rintro rfl
      exact ((mem_matches he).mp ((honly item).mpr rfl)).2
  · right
    exact ⟨_, h, Or.inr ⟨⟨_, rfl⟩, Or.inr ⟨e.2, List.mem_singleton.mpr rfl, _, _, hne, ((mem_matches he).mp ha).2,
      ((mem_matches he).mp hb).2⟩⟩⟩

theorem Unresolved.mono {master : Table} {symbols symbols' : List String} {e : PyError}
    (h : Unresolved reader master symbols e) (hsub : symbols ⊆ symbols') : Unresolved reader master symbols' e := by
  rcases h with ⟨hmessage, symbol, hmem, hnone⟩ | ⟨hmessage, hnone | ⟨symbol, hmem, htwo⟩⟩
  · exact Or.inl ⟨hmessage, symbol, hsub hmem, hnone⟩
  · exact Or.inr ⟨hmessage, Or.inl hnone⟩
  · exact Or.inr ⟨hmessage, Or.inr ⟨symbol, hsub hmem, htwo⟩⟩

/-- What is resolved: normal forms of symbols with one security id. -/
def Resolved (reader : Reader) (master : Table) (symbols : List String) (resolved : Dict String DhanInstrument) :
    Prop :=
  ∀ key item, resolved.get? key = some item →
    ∃ symbol ∈ symbols, symbolOf reader symbol = key ∧ OnlyOne reader master symbol item

/-- The loop over the symbols that are asked for. -/
theorem resolveEach_cases (master : Table) {symbols : List String} {entries : List (String × String)}
    (hentries : ∀ e ∈ entries, e.2 ∈ symbols ∧ symbolOf reader e.2 = e.1) {resolved : Dict String DhanInstrument}
    (hresolved : Resolved reader master symbols resolved) :
    (∃ resolved', resolveEach reader master entries resolved = .ok resolved' ∧
      Resolved reader master symbols resolved' ∧ (∀ key, resolved.get? key ≠ none → resolved'.get? key ≠ none) ∧
      ∀ e ∈ entries, resolved'.get? e.1 ≠ none) ∨
    ∃ error, resolveEach reader master entries resolved = .error error ∧ Unresolved reader master symbols error := by
  induction entries generalizing resolved with
  | nil => exact Or.inl ⟨resolved, rfl, hresolved, fun _ h => h, fun _ h => (nomatch h)⟩
  | cons e entries ih =>
    obtain ⟨⟨hmem, hkey⟩, hrest⟩ := List.forall_mem_cons.mp hentries
    rcases chosen_matches master hkey with ⟨item, hitem, honly⟩ | ⟨error, herror, hwhy⟩
    · have hstep : resolveEach reader master (e :: entries) resolved =
          resolveEach reader master entries (resolved.set (symbolOf reader e.2) item) := by
        unfold resolveEach
        rw [List.foldlM_cons, hitem]
        rfl
      have hset : Resolved reader master symbols (resolved.set (symbolOf reader e.2) item) := by
        intro key item' hget
        rw [Dict.get?_set] at hget
        split_ifs at hget with hsame
        · cases hget
          exact ⟨e.2, hmem, hsame.symm, honly⟩
        · exact hresolved key item' hget
      rw [hstep]
      rcases ih hrest hset with ⟨resolved', hok, hresolved', hkept, hall⟩ | herror
      · left
        refine ⟨resolved', hok, hresolved', fun key hne => hkept key ?_, List.forall_mem_cons.mpr ⟨hkept e.1 ?_, hall⟩⟩
        · rw [Dict.get?_set]
          split_ifs
          · exact Option.some_ne_none _
          · exact hne
        · rw [← hkey, Dict.get?_set_self]
          exact Option.some_ne_none _
      · exact Or.inr herror
    · right
      refine ⟨error, ?_, hwhy.mono (by simpa using hmem)⟩
      unfold resolveEach
      rw [List.foldlM_cons, herror]
      rfl

/-- **The resolver**: every symbol that is asked for, by its normal form, or why not. -/
theorem resolve_cases (symbols : List String) (master : Table) :
    (∃ resolved, resolve reader symbols master = .ok resolved ∧ Resolved reader master symbols resolved ∧
      ∀ symbol ∈ symbols, resolved.get? (symbolOf reader symbol) ≠ none) ∨
    ∃ error, resolve reader symbols master = .error error ∧ Unresolved reader master symbols error := by
  by_cases hnone : master.fieldnames = none
  · right
    refine ⟨.valueError "Dhan instrument master has no header", ?_, Or.inr ⟨⟨_, rfl⟩, Or.inl hnone⟩⟩
    unfold resolve
    rw [if_pos hnone]
  · rw [resolve_eq hnone]
    have hempty : Resolved reader master symbols .empty := fun _ _ h => (nomatch h)
    rcases resolveEach_cases master (fun e he => mem_requestedOf he) hempty with
      ⟨resolved, hok, hresolved, -, hall⟩ | herror
    · left
      refine ⟨resolved, hok, hresolved, fun symbol hsymbol => ?_⟩
      obtain ⟨e, he, hkey⟩ := exists_requestedOf hsymbol
      rw [← hkey]
      exact hall e he
    · exact Or.inr herror

end Resolving

/-! ### The builder -/

section Building

variable (host : Host) (reader : Reader)

/-- A security id that the CSV file or the master has for a symbol. -/
def IdOf (master : Table) (spec : NseSymbolSpec) (securityId : String) : Prop :=
  spec.securityId = some securityId ∨ spec.securityId = none ∧ Candidate reader master spec.symbol securityId

/-- What the builder is meant to do: every symbol has its only security id, in its instrument and in the client, or a
symbol without one is not in the master or is ambiguous there. -/
def Meant (specs : List NseSymbolSpec) (master : Table) : Except PyError DhanUniverse → Prop
  | .ok built =>
    List.Forall₂ (fun spec item => item.symbol = spec.symbol ∧
      (∀ securityId, IdOf reader master spec securityId ↔ securityId = item.securityId) ∧
      built.client.securityIdOf reader spec.symbol = .ok item.securityId) specs built.instruments
  | .error e => Unresolved reader master (unresolvedOf specs) e

/-- A symbol without a security id is its own normal form, and symbols that differ in blanks only have the same one. -/
structure Unmistakable (specs : List NseSymbolSpec) (master : Table) : Prop where
  normal : ∀ spec ∈ specs, spec.securityId = none → symbolOf reader spec.symbol = spec.symbol
  agree : ∀ a ∈ specs, ∀ b ∈ specs, strip a.symbol = strip b.symbol →
    ∀ i j, IdOf reader master a i → IdOf reader master b j → i = j

variable {host reader} {upperOf : Char → List Char} {specs : List NseSymbolSpec} {master : Table}

theorem mem_unresolvedOf {symbol : String} :
    symbol ∈ unresolvedOf specs ↔ ∃ spec ∈ specs, spec.securityId = none ∧ spec.symbol = symbol := by
  unfold unresolvedOf
  simp only [List.mem_map, List.mem_filter, decide_eq_true_eq, and_assoc]

/-! ### The jobs -/

theorem jobOf_ok {spec : NseSymbolSpec} (hsymbol : spec.symbol ≠ "") {timeframe : String}
    (htimeframe : timeframe ∈ supportedHistoryTimeframes) : ∃ job, jobOf spec timeframe = .ok job := by
  have hsupported : ∀ timeframe ∈ supportedHistoryTimeframes, (timeframeDelta timeframe).isOk = true := by
    decide +kernel
  have hok := hsupported timeframe htimeframe
  unfold jobOf HistoryJob.create
  split
  · rename_i e he
    rw [he] at hok
    cases hok
  · rw [dif_neg (by simp [hsymbol])]
    exact ⟨_, rfl⟩

theorem jobs_ok (hloaded : Loaded upperOf specs) :
    ∃ jobs, (specs.mapM fun spec => spec.timeframes.mapM (jobOf spec)) = .ok jobs := by
  rcases Effect.mapM_cases (fun spec : NseSymbolSpec => spec.timeframes.mapM (jobOf spec)) specs with
    h | ⟨spec, hspec, e, he, -⟩
  · exact h
  · have hsymbol : spec.symbol ≠ "" := by
      obtain ⟨c, rest, hcons, -⟩ := hloaded.head spec hspec
      rintro hblank
      rw [hblank] at hcons
      cases hcons
    rcases Effect.mapM_cases (jobOf spec) spec.timeframes with ⟨jobs, h⟩ | ⟨timeframe, htimeframe, e', he', -⟩
    · rw [h] at he
      cases he
    · obtain ⟨job, hjob⟩ := jobOf_ok hsymbol (hloaded.timeframes spec hspec timeframe htimeframe)
      rw [hjob] at he'
      cases he'

/-! ### The client -/

/-- What the client is made of, when symbols and security ids are not blank. -/
theorem create_ok (reader : Reader) (instruments : List DhanInstrument) (transport : DhanRequest → Except PyError Json)
    (hne : instruments ≠ []) (hkeys : ∀ item ∈ instruments, reader.upper (strip item.symbol) ≠ "")
    (hids : ∀ item ∈ instruments, item.securityId ≠ "" ∧ strip item.securityId = item.securityId) :
    ∃ client, DhanClient.create reader none
        (instruments.foldl (fun ids item => ids.set item.symbol item.securityId) .empty) transport = .ok client ∧
      (∀ symbol securityId, client.securityIdOf reader symbol = .ok securityId →
        ∃ item ∈ instruments, reader.upper (strip item.symbol) = reader.upper (strip symbol) ∧
          item.securityId = securityId) ∧
      ∀ item ∈ instruments, ∃ securityId, client.securityIdOf reader item.symbol = .ok securityId := by
  obtain ⟨ids, hidsEq⟩ : ∃ ids,
      instruments.foldl (fun ids item => ids.set item.symbol item.securityId) Dict.empty = ids := ⟨_, rfl⟩
  have hentry : ∀ e ∈ ids.entries, ∃ item ∈ instruments, item.symbol = e.1 ∧ item.securityId = e.2 := by
    intro e he
    rw [← hidsEq] at he
    exact Dict.exists_of_get?_foldl_last (Dict.get?_eq_some_iff.mpr he)
  have hexists : ∀ item ∈ instruments, ∃ e ∈ ids.entries, e.1 = item.symbol := by
    intro item hitem
    obtain ⟨securityId, hget⟩ := Dict.exists_get?_foldl_last DhanInstrument.symbol
      DhanInstrument.securityId hitem
    rw [hidsEq] at hget
    exact ⟨_, Dict.get?_eq_some_iff.mp hget, rfl⟩
  obtain ⟨mapped, hmapped⟩ : ∃ mapped, ids.entries.foldl (fun mapped e =>
      mapped.set (reader.upper (strip e.1)) (strip e.2)) Dict.empty = mapped := ⟨_, rfl⟩
  have hfrom : ∀ key value, mapped.get? key = some value →
      ∃ item ∈ instruments, reader.upper (strip item.symbol) = key ∧ item.securityId = value := by
    intro key value hget
    rw [← hmapped] at hget
    obtain ⟨e, he, hkey, hvalue⟩ := Dict.exists_of_get?_foldl_last hget
    obtain ⟨item, hitem, hsymbol, hid⟩ := hentry e he
    refine ⟨item, hitem, hsymbol ▸ hkey, ?_⟩
    rw [← hvalue, ← hid, (hids item hitem).2]
  refine ⟨⟨none, mapped, transport⟩, ?_, ?_, ?_⟩
  · unfold DhanClient.create
    rw [hidsEq, if_neg, hmapped, if_neg]
    · rw [Bool.not_eq_true, List.any_eq_false]
      intro e he
      obtain ⟨item, hitem, hkey, hid⟩ := hfrom e.1 e.2 (Dict.get?_eq_some_iff.mpr he)
      have h₁ := hkeys item hitem
      have h₂ := (hids item hitem).1
      rw [hkey] at h₁
      rw [hid] at h₂
      simp [h₁, h₂]
    · rintro ⟨-, hnil⟩
      obtain ⟨item, hitem⟩ := List.exists_mem_of_ne_nil _ hne
      obtain ⟨e, he, -⟩ := hexists item hitem
      rw [hnil] at he
      cases he
  · intro symbol securityId h
    unfold DhanClient.securityIdOf at h
    split at h
    · rename_i value hget
      cases h
      exact hfrom _ _ hget
    · cases h
  · intro item hitem
    obtain ⟨e, he, hsymbol⟩ := hexists item hitem
    obtain ⟨value, hget⟩ := Dict.exists_get?_foldl_last (fun e : String × String => reader.upper (strip e.1))
      (fun e => strip e.2) he
    rw [hmapped, hsymbol] at hget
    refine ⟨value, ?_⟩
    unfold DhanClient.securityIdOf
    rw [hget]

end Building

section Meeting

variable {host : Host} {reader : Reader} {upperOf : Char → List Char} {specs : List NseSymbolSpec} {master : Table}

/-! ### The symbols without a security id -/

theorem resolving_cases (reader : Reader) (specs : List NseSymbolSpec) (master : Table) :
    (∃ resolved, resolving reader specs master = .ok resolved ∧ Resolved reader master (unresolvedOf specs) resolved ∧
      ∀ symbol ∈ unresolvedOf specs, resolved.get? (symbolOf reader symbol) ≠ none) ∨
    ∃ e, resolving reader specs master = .error e ∧ Unresolved reader master (unresolvedOf specs) e := by
  unfold resolving
  by_cases hnil : unresolvedOf specs = []
  · rw [if_pos hnil]
    refine Or.inl ⟨.empty, rfl, fun _ _ h => (nomatch h), fun symbol hsymbol => ?_⟩
    rw [hnil] at hsymbol
    cases hsymbol
  · rw [if_neg hnil]
    exact resolve_cases _ _

/-- What is resolved has one security id. -/
theorem Resolved.existsUnique {symbols : List String} {resolved : Dict String DhanInstrument}
    (h : Resolved reader master symbols resolved) {symbol : String}
    (hget : resolved.get? (symbolOf reader symbol) ≠ none) :
    ∃! securityId, Candidate reader master symbol securityId := by
  obtain ⟨item, hitem⟩ := Option.ne_none_iff_exists'.mp hget
  obtain ⟨symbol', -, hsame, honly⟩ := h _ _ hitem
  refine ⟨item.securityId, (candidate_congr hsame).mp ((honly _).mpr rfl), fun securityId hid => ?_⟩
  exact (honly _).mp ((candidate_congr hsame).mpr hid)

/-- The master of a symbol that is not resolved does not have just one security id for each. -/
theorem Unresolved.exists_not_unique {symbols : List String} {e : PyError} (h : Unresolved reader master symbols e)
    (hheader : master.fieldnames ≠ none) :
    ∃ symbol ∈ symbols, ¬ ∃! securityId, Candidate reader master symbol securityId := by
  rcases h with ⟨-, symbol, hmem, hnone⟩ | ⟨-, hnone | ⟨symbol, hmem, a, b, hne, ha, hb⟩⟩
  · exact ⟨symbol, hmem, fun ⟨securityId, hid, _⟩ => hnone securityId hid⟩
  · exact absurd hnone hheader
  · exact ⟨symbol, hmem, fun hunique => hne (hunique.unique ha hb)⟩

/-! ### The instruments -/

/-- Instruments that are all found: then every symbol without a security id is its own normal form. -/
theorem normal_of_found (hupper : Uppercases reader upperOf) (hloaded : Loaded upperOf specs)
    {resolved : Dict String DhanInstrument} (hresolved : Resolved reader master (unresolvedOf specs) resolved)
    (hfound : ∀ symbol ∈ unresolvedOf specs, resolved.get? symbol ≠ none) :
    ∀ symbol ∈ unresolvedOf specs, symbolOf reader symbol = symbol := by
  apply fixed_of_covered fun symbol : String => symbol.toList.length
  · intro symbol hsymbol hne
    obtain ⟨spec, hspec, -, rfl⟩ := mem_unresolvedOf.mp hsymbol
    exact symbolOf_shorter hupper (hloaded.inUpperCase spec hspec) hne
  · intro symbol hsymbol
    obtain ⟨item, hitem⟩ := Option.ne_none_iff_exists'.mp (hfound symbol hsymbol)
    obtain ⟨symbol', hmem, hsame, -⟩ := hresolved _ _ hitem
    exact ⟨symbol', hmem, hsame⟩

/-- The instrument of a symbol, when those without a security id are their own normal forms. -/
theorem instrumentOf_ok (hloaded : Loaded upperOf specs) {resolved : Dict String DhanInstrument}
    (hresolved : Resolved reader master (unresolvedOf specs) resolved)
    (hnormal : ∀ symbol ∈ unresolvedOf specs, symbolOf reader symbol = symbol)
    {spec : NseSymbolSpec} (hspec : spec ∈ specs) {item : DhanInstrument} (h : instrumentOf resolved spec = .ok item) :
    item.symbol = spec.symbol ∧ (item.securityId ≠ "" ∧ strip item.securityId = item.securityId) ∧
      ∀ securityId, IdOf reader master spec securityId ↔ securityId = item.securityId := by
  unfold instrumentOf at h
  cases hid : spec.securityId with
  | some securityId =>
    have hstripped := hloaded.securityId spec hspec securityId hid
    rw [hid, Option.filter_some, if_pos (by simpa using hstripped.1)] at h
    cases h
    refine ⟨rfl, hstripped, fun securityId' => ?_⟩
    unfold IdOf
    simp [hid, eq_comm]
  | none =>
    rw [hid, Option.filter_none] at h
    cases hget : resolved.get? spec.symbol with
    | none =>
      rw [hget] at h
      cases h
    | some found =>
      rw [hget] at h
      cases h
      obtain ⟨symbol', -, hsame, honly⟩ := hresolved _ _ hget
      have hself : symbolOf reader symbol' = symbolOf reader spec.symbol :=
        hsame.trans (hnormal spec.symbol (mem_unresolvedOf.mpr ⟨spec, hspec, hid, rfl⟩)).symm
      have hcandidate (securityId : String) :
          Candidate reader master spec.symbol securityId ↔ securityId = found.securityId :=
        (candidate_congr hself).symm.trans (honly securityId)
      obtain ⟨hne, row, -, -, hrow, -⟩ := (hcandidate found.securityId).mpr rfl
      refine ⟨rfl, ⟨hne, ?_⟩, fun securityId => ?_⟩
      · rw [← hrow]
        unfold securityIdOfRow valueOf
        split
        · exact strip_strip _
        · rfl
      · unfold IdOf
        simp [hid, hcandidate]

/-- A symbol whose instrument is not found has no security id, and the error is that of a missing key. -/
theorem instrumentOf_error {resolved : Dict String DhanInstrument} {spec : NseSymbolSpec} {e : PyError}
    (hloaded : Loaded upperOf specs) (hspec : spec ∈ specs) (h : instrumentOf resolved spec = .error e) :
    spec.securityId = none ∧ resolved.get? spec.symbol = none ∧ e = .keyError spec.symbol := by
  unfold instrumentOf at h
  cases hid : spec.securityId with
  | some securityId =>
    rw [hid, Option.filter_some, if_pos (by simpa using (hloaded.securityId spec hspec securityId hid).1)] at h
    cases h
  | none =>
    rw [hid, Option.filter_none] at h
    cases hget : resolved.get? spec.symbol with
    | none =>
      rw [hget] at h
      cases h
      exact ⟨rfl, rfl, rfl⟩
    | some found =>
      rw [hget] at h
      cases h

/-! ### The whole -/

variable {self : DhanNseUniverseBuilder} {path : String} {file : Option Table} {now : Instant}
  {token : DhanAuth.DhanAccessToken}

/-- The builder, after the symbols are loaded. -/
theorem build_eq (hload : loadNseSymbols host reader path file = .ok specs) (htoken : self.token now = .ok token)
    (master : Table) :
    self.build host reader path file master (.aware now) = (do
      let resolved ← resolving reader specs master
      let instruments ← specs.mapM (instrumentOf resolved)
      let client ← DhanClient.create reader none
        (instruments.foldl (fun ids item => ids.set item.symbol item.securityId) .empty) self.transport
      let jobs ← specs.mapM fun spec => spec.timeframes.mapM (jobOf spec)
      return ⟨instruments, jobs.flatten, client⟩) := by
  have hnow : utc (.aware now) "now" = .ok now := rfl
  unfold DhanNseUniverseBuilder.build
  rw [hnow, hload]
  simp only [bind, Except.bind, htoken]

/-- **The order of the master's rows** does not matter to the builder. -/
theorem build_perm {master' : Table} (hfield : master'.fieldnames = master.fieldnames)
    (hperm : master'.records.Perm master.records) (now : DateTime) :
    self.build host reader path file master' now = self.build host reader path file master now := by
  unfold DhanNseUniverseBuilder.build resolving
  simp only [resolve_perm hfield hperm]

/-- In upper case and without blanks at its ends, a symbol is not empty. -/
theorem upper_strip (hupper : Uppercases reader upperOf) (hloaded : Loaded upperOf specs) {spec : NseSymbolSpec}
    (hspec : spec ∈ specs) : reader.upper (strip spec.symbol) = strip spec.symbol ∧ strip spec.symbol ≠ "" := by
  refine ⟨upper_eq_self hupper (inUpperCase_strip (hloaded.inUpperCase spec hspec)), ?_⟩
  obtain ⟨c, rest, hcons, hc⟩ := hloaded.head spec hspec
  obtain ⟨rest', htrim⟩ : ∃ rest', trim isSpace (c :: rest) = c :: rest' := trim_cons hc
  intro hblank
  have hlist := toList_strip spec.symbol
  rw [hblank, hcons, htrim] at hlist
  cases hlist

/-- **The builder**, when the symbols without a security id are resolved: either all of them are their own normal forms,
or one that is not is missing from what was resolved. -/
theorem build_of_resolved (hupper : Uppercases reader upperOf) (hloaded : Loaded upperOf specs) (hne : specs ≠ [])
    (hload : loadNseSymbols host reader path file = .ok specs) (htoken : self.token now = .ok token)
    {resolved : Dict String DhanInstrument} (hok : resolving reader specs master = .ok resolved)
    (hresolved : Resolved reader master (unresolvedOf specs) resolved)
    (hall : ∀ symbol ∈ unresolvedOf specs, resolved.get? (symbolOf reader symbol) ≠ none) :
    (∃ built, self.build host reader path file master (.aware now) = .ok built ∧
      (∀ symbol ∈ unresolvedOf specs, symbolOf reader symbol = symbol) ∧
      List.Forall₂ (fun spec item => item.symbol = spec.symbol ∧
        ∀ securityId, IdOf reader master spec securityId ↔ securityId = item.securityId) specs built.instruments ∧
      (∀ symbol securityId, built.client.securityIdOf reader symbol = .ok securityId →
        ∃ item ∈ built.instruments, reader.upper (strip item.symbol) = reader.upper (strip symbol) ∧
          item.securityId = securityId) ∧
      ∀ item ∈ built.instruments, ∃ securityId, built.client.securityIdOf reader item.symbol = .ok securityId) ∨
    ∃ symbol ∈ unresolvedOf specs, symbolOf reader symbol ≠ symbol ∧
      self.build host reader path file master (.aware now) = .error (.keyError symbol) := by
  have hbuild := build_eq hload htoken master
  rw [hok] at hbuild
  rcases Effect.mapM_cases (instrumentOf resolved) specs with ⟨instruments, hinstruments⟩ | ⟨spec, hspec, e, he, herror⟩
  · left
    have heach := Effect.forall₂_of_mapM hinstruments
    have hfound : ∀ symbol ∈ unresolvedOf specs, resolved.get? symbol ≠ none := by
      intro symbol hsymbol hget
      obtain ⟨spec, hspec, hid, rfl⟩ := mem_unresolvedOf.mp hsymbol
      obtain ⟨item, hitem⟩ := Effect.exists_of_mapM hinstruments spec hspec
      unfold instrumentOf at hitem
      rw [hid, Option.filter_none, hget] at hitem
      cases hitem
    have hnormal := normal_of_found hupper hloaded hresolved hfound
    have hitems : List.Forall₂ (fun spec item => spec ∈ specs ∧ item.symbol = spec.symbol ∧
        (item.securityId ≠ "" ∧ strip item.securityId = item.securityId) ∧
          ∀ securityId, IdOf reader master spec securityId ↔ securityId = item.securityId) specs instruments :=
      ((List.forall₂_and_left specs instruments).mpr ⟨fun _ hspec => hspec, heach⟩).imp fun spec item h =>
        ⟨h.1, instrumentOf_ok hloaded hresolved hnormal h.1 h.2⟩
    have hfrom : ∀ item ∈ instruments, ∃ spec ∈ specs, item.symbol = spec.symbol ∧
        item.securityId ≠ "" ∧ strip item.securityId = item.securityId := by
      intro item hitem
      obtain ⟨spec, hspec, h⟩ := Effect.exists_of_forall₂ hitems hitem
      exact ⟨spec, hspec, h.2.1, h.2.2.1⟩
    obtain ⟨client, hclient, hmaps, hdefined⟩ := create_ok reader instruments self.transport
      (by
        rintro rfl
        exact hne (List.forall₂_nil_right_iff.mp heach))
      (by
        intro item hitem
        obtain ⟨spec, hspec, hsymbol, -⟩ := hfrom item hitem
        rw [hsymbol, (upper_strip hupper hloaded hspec).1]
        exact (upper_strip hupper hloaded hspec).2)
      (by
        intro item hitem
        obtain ⟨spec, hspec, -, hid⟩ := hfrom item hitem
        exact hid)
    obtain ⟨jobs, hjobs⟩ := jobs_ok hloaded
    have hpairs : List.Forall₂ (fun spec item => item.symbol = spec.symbol ∧
        ∀ securityId, IdOf reader master spec securityId ↔ securityId = item.securityId) specs instruments :=
      hitems.imp fun spec item h => ⟨h.2.1, h.2.2.2⟩
    refine ⟨⟨instruments, jobs.flatten, client⟩, ?_, hnormal, hpairs, hmaps, hdefined⟩
    rw [hbuild]
    simp only [bind, Except.bind, hinstruments, hclient, hjobs]
    rfl
  · right
    obtain ⟨hid, hget, rfl⟩ := instrumentOf_error hloaded hspec he
    have hsymbol := mem_unresolvedOf.mpr ⟨spec, hspec, hid, rfl⟩
    refine ⟨spec.symbol, hsymbol, ?_, ?_⟩
    · intro hsame
      apply hall _ hsymbol
      rw [hsame]
      exact hget
    rw [hbuild]
    simp only [bind, Except.bind, herror]

/-- Symbols that differ in blanks only have the same security id in the client. -/
theorem securityIdOf_congr {client : DhanClient} {a b securityId : String} (hstrip : strip a = strip b)
    (h : client.securityIdOf reader a = .ok securityId) : client.securityIdOf reader b = .ok securityId := by
  unfold DhanClient.securityIdOf at h ⊢
  rw [← hstrip]
  split at h
  · exact h
  · split at h
    · exact h
    · cases h

/-- **What is built** is right exactly if symbols that differ in blanks only have the same security id. -/
theorem built_is_right_iff (hupper : Uppercases reader upperOf) (hloaded : Loaded upperOf specs) {built : DhanUniverse}
    (hpairs : List.Forall₂ (fun spec item => item.symbol = spec.symbol ∧
      ∀ securityId, IdOf reader master spec securityId ↔ securityId = item.securityId) specs built.instruments)
    (hmaps : ∀ symbol securityId, built.client.securityIdOf reader symbol = .ok securityId →
      ∃ item ∈ built.instruments, reader.upper (strip item.symbol) = reader.upper (strip symbol) ∧
        item.securityId = securityId)
    (hdefined : ∀ item ∈ built.instruments, ∃ securityId,
      built.client.securityIdOf reader item.symbol = .ok securityId) :
    Meant reader specs master (.ok built) ↔ ∀ a ∈ specs, ∀ b ∈ specs, strip a.symbol = strip b.symbol →
      ∀ i j, IdOf reader master a i → IdOf reader master b j → i = j := by
  constructor
  · intro hmeant a ha b hb hstrip i j hi hj
    obtain ⟨itemA, -, -, hidA, hclientA⟩ := Effect.exists_of_forall₂ hmeant.flip ha
    obtain ⟨itemB, -, -, hidB, hclientB⟩ := Effect.exists_of_forall₂ hmeant.flip hb
    rw [securityIdOf_congr hstrip hclientA] at hclientB
    rw [(hidA i).mp hi, (hidB j).mp hj, Except.ok.inj hclientB]
  · intro hagree
    have hspecs : List.Forall₂ (fun spec item => (spec ∈ specs ∧ item ∈ built.instruments) ∧ item.symbol = spec.symbol ∧
        ∀ securityId, IdOf reader master spec securityId ↔ securityId = item.securityId) specs built.instruments := by
      have hleft := (List.forall₂_and_left specs built.instruments).mpr ⟨fun _ hspec => hspec, hpairs⟩
      have hright := (List.forall₂_and_left built.instruments specs).mpr ⟨fun _ hitem => hitem, hleft.flip⟩
      exact hright.flip.imp fun spec item h => ⟨⟨h.2.1, h.1⟩, h.2.2⟩
    apply hspecs.imp
    rintro spec item ⟨⟨hspec, hitem⟩, hsymbol, hid⟩
    refine ⟨hsymbol, hid, ?_⟩
    obtain ⟨securityId, hclient⟩ := hdefined item hitem
    obtain ⟨item', hitem', hkey, rfl⟩ := hmaps _ _ hclient
    obtain ⟨spec', hspec', hsymbol', hid'⟩ := Effect.exists_of_forall₂ hpairs hitem'
    rw [hsymbol, hsymbol', (upper_strip hupper hloaded hspec).1, (upper_strip hupper hloaded hspec').1] at hkey
    rw [← hsymbol, hclient]
    exact congrArg _ (hagree spec' hspec' spec hspec hkey _ _ ((hid' _).mpr rfl) ((hid _).mpr rfl))

/-- **The universe is right exactly if no symbol can be mistaken**: a symbol without a security id has none or several
in the master, or every symbol without one is its own normal form and no two symbols that differ in blanks only have
different security ids. -/
theorem universe_is_right_iff (hupper : Uppercases reader upperOf)
    (hload : loadNseSymbols host reader path file = .ok specs) (htoken : self.token now = .ok token) (master : Table) :
    ((∀ master' : Table, master'.fieldnames = master.fieldnames → master'.records.Perm master.records →
        self.build host reader path file master' (.aware now) = self.build host reader path file master (.aware now)) ∧
      Meant reader specs master (self.build host reader path file master (.aware now))) ↔
    (∃ symbol ∈ unresolvedOf specs, master.fieldnames = none ∨
      ¬ ∃! securityId, Candidate reader master symbol securityId) ∨ Unmistakable reader specs master := by
  obtain ⟨hne, hloaded⟩ := loadNseSymbols_ok hupper hload
  have hperm : ∀ master' : Table, master'.fieldnames = master.fieldnames → master'.records.Perm master.records →
      self.build host reader path file master' (.aware now) = self.build host reader path file master (.aware now) :=
    fun _ hfield hrecords => build_perm hfield hrecords _
  rw [and_iff_right hperm]
  rcases resolving_cases reader specs master with ⟨resolved, hok, hresolved, hall⟩ | ⟨e, he, hwhy⟩
  · -- the master has one security id for each symbol without one
    have hunique : ∀ symbol ∈ unresolvedOf specs, ∃! securityId, Candidate reader master symbol securityId :=
      fun symbol hsymbol => hresolved.existsUnique (hall symbol hsymbol)
    have hheader : ∀ symbol ∈ unresolvedOf specs, master.fieldnames ≠ none := by
      intro symbol hsymbol hnone
      unfold resolving resolve at hok
      rw [if_neg (List.ne_nil_of_mem hsymbol), if_pos hnone] at hok
      cases hok
    have hnot : ¬ ∃ symbol ∈ unresolvedOf specs, master.fieldnames = none ∨
        ¬ ∃! securityId, Candidate reader master symbol securityId := by
      rintro ⟨symbol, hsymbol, hnone | hseveral⟩
      · exact hheader symbol hsymbol hnone
      · exact hseveral (hunique symbol hsymbol)
    rw [or_iff_right hnot]
    rcases build_of_resolved hupper hloaded hne hload htoken hok hresolved hall with
      ⟨built, hbuilt, hnormal, hpairs, hmaps, hdefined⟩ | ⟨symbol, hsymbol, hchanged, herror⟩
    · rw [hbuilt, built_is_right_iff hupper hloaded hpairs hmaps hdefined]
      constructor
      · intro hagree
        exact ⟨fun spec hspec hid => hnormal _ (mem_unresolvedOf.mpr ⟨spec, hspec, hid, rfl⟩), hagree⟩
      · exact fun h => h.agree
    · rw [herror]
      constructor
      · rintro (⟨-, symbol', hsymbol', hnone⟩ | ⟨⟨message, hmessage⟩, -⟩)
        · obtain ⟨securityId, hid, -⟩ := hunique symbol' hsymbol'
          exact absurd hid (hnone securityId)
        · cases hmessage
      · intro h
        obtain ⟨spec, hspec, hid, rfl⟩ := mem_unresolvedOf.mp hsymbol
        exact absurd (h.normal spec hspec hid) hchanged
  · -- it has none or several for one of them
    have hbuild := build_eq hload htoken master
    rw [he] at hbuild
    refine iff_of_true ?_ (Or.inl ?_)
    · rw [hbuild]
      exact hwhy
    · by_cases hnone : master.fieldnames = none
      · obtain ⟨symbol, hsymbol⟩ : ∃ symbol, symbol ∈ unresolvedOf specs := by
          apply List.exists_mem_of_ne_nil
          intro hnil
          unfold resolving at he
          rw [if_pos hnil] at he
          cases he
        exact ⟨symbol, hsymbol, Or.inl hnone⟩
      · obtain ⟨symbol, hsymbol, hseveral⟩ := hwhy.exists_not_unique hnone
        exact ⟨symbol, hsymbol, Or.inr hseveral⟩

end Meeting

/-! ### Two files -/

/-- An ASCII letter in upper case. -/
theorem toUpper_cases (c : Char) : c.toUpper = c ∨ 65 ≤ c.toUpper.val.toNat ∧ c.toUpper.val.toNat ≤ 90 := by
  unfold Char.toUpper
  split <;> grind [UInt32.toNat_add, UInt32.le_iff_toNat_le]

theorem toUpper_toUpper (c : Char) : c.toUpper.toUpper = c.toUpper := by
  have hnot : ¬ ('a'.val ≤ c.toUpper.val ∧ c.toUpper.val ≤ 'z'.val) := by
    unfold Char.toUpper
    split <;> grind [UInt32.toNat_add, Char.toNat_val]
  rw [Char.toUpper, dif_neg hnot]

/-- ASCII texts in upper case. -/
theorem uppercases_plain : Uppercases Reader.plain fun c => [c.toUpper] where
  toList_upper text := by
    have hupper : Reader.plain.upper text = String.ofList (text.toList.map Char.toUpper) := rfl
    rw [hupper, String.toList_ofList]
    exact List.map_eq_flatMap
  ne_nil c := by simp
  not_space c hc d hd := by
    rw [List.mem_singleton.mp hd]
    rcases toUpper_cases c with h | h
    · rw [h]
      exact hc
    · unfold isSpace
      have hval : c.toUpper.toNat = c.toUpper.val.toNat := rfl
      grind
  upper_upper c d hd := by
    rw [List.mem_singleton.mp hd, toUpper_toUpper]

namespace Sample

/-- The columns of the master that the builder reads. -/
def columns : Option (List String) := some ["EXCH_ID", "SEGMENT", "INSTRUMENT", "SECURITY_ID", "TRADING_SYMBOL"]

/-- A master with two symbols. -/
def master : Table := ⟨columns, [["NSE", "E", "EQUITY", "11536", "TCS"], ["NSE", "E", "EQUITY", "25", "ABC-EQ"]]⟩

/-- A file with a symbol that has a security id and one that has none. -/
def file : Table :=
  ⟨some ["symbol", "security_id", "timeframes"], [["RELIANCE", "1333", "5m|15m"], ["tcs-eq", "", "1h"]]⟩

/-- Its symbols. -/
def specs : List NseSymbolSpec :=
  [⟨"RELIANCE", some "1333", "NSE_EQ", "EQUITY", ["5m", "15m"], "intraday"⟩,
   ⟨"TCS", none, "NSE_EQ", "EQUITY", ["1h"], "intraday"⟩]

/-- A file with a symbol that ends in `-EQ` twice. -/
def doubled : Table := ⟨some ["symbol"], [["ABC-EQ-EQ"]]⟩

/-- A builder with a token. -/
def builder : DhanNseUniverseBuilder where
  token now := .ok ⟨"token", now + seconds 86400⟩
  transport _ := .ok (.obj [])

end Sample

/-- The builder gives the symbol without a security id the one that the master has for it. -/
theorem sample_is_right :
    Meant .plain Sample.specs Sample.master
      (Sample.builder.build .cpython .plain "symbols.csv" (some Sample.file) Sample.master (.aware 0)) := by
  have hload : loadNseSymbols .cpython .plain "symbols.csv" (some Sample.file) = .ok Sample.specs := by decide +kernel
  have hids : ∀ row ∈ Sample.master.rows, symbolOf .plain "TCS" ∈ aliases .plain row →
      securityIdOfRow row = "11536" := by decide +kernel
  have honly : ∀ a ∈ Sample.specs, ∀ i, IdOf .plain Sample.master a i → some i = a.securityId.or (some "11536") := by
    simp only [Sample.specs, List.forall_mem_cons]
    refine ⟨?_, ?_, fun _ h => (nomatch h)⟩
    · rintro i (hid | ⟨hid, -⟩)
      · exact hid.symm
      · cases hid
    · rintro i (hid | ⟨-, -, row, hrow, -, rfl, halias⟩)
      · cases hid
      · exact congrArg some (hids row hrow halias)
  have hsame : ∀ a ∈ Sample.specs, ∀ b ∈ Sample.specs, strip a.symbol = strip b.symbol → a = b := by decide +kernel
  have htoken : Sample.builder.token 0 = .ok ⟨"token", seconds 86400⟩ := by decide
  refine ((universe_is_right_iff uppercases_plain hload htoken Sample.master).mpr
    (Or.inr ⟨by decide +kernel, ?_⟩)).2
  intro a ha b hb hstrip i j hi hj
  obtain rfl := hsame a ha b hb hstrip
  have hij := (honly a ha i hi).trans (honly a ha j hj).symm
  exact Option.some.inj hij

/-- The symbol `ABC-EQ-EQ` is loaded as `ABC-EQ` and looked up as `ABC`: the master has one security id for it, and the
builder raises a `KeyError`. -/
theorem doubled_suffix :
    ∃ specs, loadNseSymbols .cpython .plain "symbols.csv" (some Sample.doubled) = .ok specs ∧
      (∀ spec ∈ specs, ∃! securityId, Candidate .plain Sample.master spec.symbol securityId) ∧
      ¬ Meant .plain specs Sample.master
        (Sample.builder.build .cpython .plain "symbols.csv" (some Sample.doubled) Sample.master (.aware 0)) := by
  have hload : loadNseSymbols .cpython .plain "symbols.csv" (some Sample.doubled) =
      .ok [⟨"ABC-EQ", none, "NSE_EQ", "EQUITY", ["5m", "15m", "1h", "1d"], "intraday"⟩] := by decide +kernel
  have hids : ∀ row ∈ Sample.master.rows, symbolOf .plain "ABC-EQ" ∈ aliases .plain row →
      securityIdOfRow row = "25" := by decide +kernel
  have hcandidate : ∃ row ∈ Sample.master.rows, isNseEquity .plain row = true ∧ securityIdOfRow row = "25" ∧
      symbolOf .plain "ABC-EQ" ∈ aliases .plain row := by decide +kernel
  have hunique : ∃! securityId, Candidate .plain Sample.master "ABC-EQ" securityId := by
    refine ⟨"25", ⟨by decide, hcandidate⟩, ?_⟩
    rintro i ⟨-, row, hrow, -, rfl, halias⟩
    exact hids row hrow halias
  have hbuild : (Sample.builder.build .cpython .plain "symbols.csv" (some Sample.doubled) Sample.master (.aware 0)).map
      DhanUniverse.instruments = .error (.keyError "ABC-EQ") := by decide +kernel
  refine ⟨_, hload, List.forall_mem_singleton.mpr hunique, ?_⟩
  cases hresult : Sample.builder.build .cpython .plain "symbols.csv" (some Sample.doubled) Sample.master (.aware 0) with
  | ok built =>
    rw [hresult] at hbuild
    cases hbuild
  | error e =>
    rw [hresult] at hbuild
    cases hbuild
    rintro (⟨-, symbol, hsymbol, hnone⟩ | ⟨⟨message, hmessage⟩, -⟩)
    · rw [List.mem_singleton.mp hsymbol] at hnone
      exact hnone "25" ⟨by decide, hcandidate⟩
    · cases hmessage

end NanoDelta.Universe

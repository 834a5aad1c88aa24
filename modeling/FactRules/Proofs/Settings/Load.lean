import FactRules.Proofs.Reading.Success
import FactRules.Proofs.Settings.DeepOverride
import FactRules.Proofs.Toml.DistinctKeys

/-!
# Loading settings

Settings are loaded once when a host begins, and then over and over (`Settings.loadAll`), each time
without overrides or under a text of overrides. Texts are read by any reader that keeps to the laws
of TOML as far as settings rely on them (`TomlReader.Lawful`); `Toml.read?` does
(`Toml.lawful_read?`).

`Settings.loadAll_spec` says that a load takes effect as a whole or not at all: either the settings
are the packaged ones under its own overrides, whatever was loaded before, or they stay as they are.
In both cases the rules are named by a text and the seed is a whole number (`Settings.IsTyped`), for
an override never changes the kind of a value (`Settings.exists_narrative?_deep`).
-/

namespace FactRules

/-- What the packaged settings say: the packaged rules, and a seed of the system's choice. -/
def Settings.packaged : Settings where
  entries := [("narrative", .table [("RULES", .str "rules.toml"), ("SEED", .int (-1))])]

/-- What settings rely on of a reader of TOML texts. -/
structure TomlReader.Lawful (read : TomlReader) : Prop where
  /-- A table has each key once, and so have the tables in it. -/
  distinct : ∀ {text entries}, read text = some entries → (Value.table entries).HasDistinctKeys
  /-- The packaged settings are read as what they say. -/
  packaged : read Settings.packagedText = some Settings.packaged.entries

namespace Settings

/-- The overrides of a load: none if there is no text, and those of the text if it is a document. -/
def overrides? (read : TomlReader) : Option String → Option (List (String × Value))
  | none => some []
  | some text => read text

/-- The settings after a series of loads, each without a text of overrides or with one. A host that
cannot load the packaged settings does not begin. -/
def loadAll (read : TomlReader) (calls : List (Option String)) : Except SettingsError Settings :=
  (loadWith read none).map fun begun =>
    calls.foldl (fun current call => current.after (loadWith read call)) begun

/-- The rules are named by a text and the seed is a whole number. -/
def IsTyped (settings : Settings) : Prop :=
  (∃ name, settings.narrative? "RULES" = some (.str name)) ∧
    ∃ seed, settings.narrative? "SEED" = some (.int seed)

variable {read : TomlReader} {call : Option String} {overrides : List (String × Value)}

/-! ## One load -/

/-- The packaged settings have each key once. -/
theorem distinct_packaged : (Value.table packaged.entries).HasDistinctKeys := by
  have hrules : (Value.str "rules.toml").HasDistinctKeys := .leaf (by simp [Value.kind])
  have hseed : (Value.int (-1)).HasDistinctKeys := .leaf (by simp [Value.kind])
  refine .table (by simp [packaged]) fun entry hmem => ?_
  cases List.mem_singleton.1 hmem
  exact .table (by simp) (by simp [hrules, hseed])

/-- So have overrides. -/
theorem distinct_of_overrides? (hread : read.Lawful) (h : overrides? read call = some overrides) :
    (Value.table overrides).HasDistinctKeys := by
  cases call with
  | none =>
    cases h
    exact .nil
  | some text => exact hread.distinct h

/-- The packaged settings are read as what they say. -/
theorem ofText_packagedText (hread : read.Lawful) : ofText read packagedText = .ok packaged := by
  rw [ofText, hread.packaged]

/-- A load lays its overrides over the packaged settings. Without a text there are none. -/
theorem loadWith_of_overrides? (hread : read.Lawful)
    (h : overrides? read call = some overrides) :
    loadWith read call = packaged.under overrides := by
  cases call with
  | none =>
    cases h
    rw [loadWith, ofText_packagedText hread, under, Overlay.merge]
    rfl
  | some text =>
    rw [overrides?] at h
    rw [loadWith, ofText_packagedText hread]
    simp only [bind, Except.bind, ofText, h]

/-- A text that is no document is refused. -/
theorem loadWith_of_overrides?_eq_none (hread : read.Lawful) (h : overrides? read call = none) :
    loadWith read call = .error .badSyntax := by
  cases call with
  | none => cases h
  | some text =>
    rw [overrides?] at h
    rw [loadWith, ofText_packagedText hread]
    simp only [bind, Except.bind, ofText, h]

/-- Overrides that fit the packaged settings are laid over them. -/
theorem loadWith_of_fits (hread : read.Lawful) (h : overrides? read call = some overrides)
    (hfits : Overlay.Fits (.table packaged.entries) (.table overrides)) :
    loadWith read call = .ok ⟨Overlay.deepEntries packaged.entries overrides⟩ := by
  have hmerge :=
    (Overlay.merge_spec [] _ _ distinct_packaged (distinct_of_overrides? hread h)).1 hfits
  rw [loadWith_of_overrides? hread h, under, hmerge]

/-- Overrides that do not fit the packaged settings are refused. -/
theorem loadWith_of_not_fits (hread : read.Lawful) (h : overrides? read call = some overrides)
    (hfits : ¬ Overlay.Fits (.table packaged.entries) (.table overrides)) :
    ∃ conflict, loadWith read call = .error (.conflict conflict) := by
  have hmerge :=
    (Overlay.merge_spec [] _ _ distinct_packaged (distinct_of_overrides? hread h)).2
  rw [loadWith_of_overrides? hread h, under]
  cases hconflict : (Overlay.merge [] packaged.entries overrides).conflict with
  | none => exact absurd (hmerge hconflict) hfits
  | some conflict => exact ⟨conflict, rfl⟩

/-! ## The kinds of the settings -/

/-- Overrides that fit leave every setting of the narrative there, as a value of its kind. -/
theorem exists_narrative?_deep {base : List (String × Value)}
    (hfits : Overlay.Fits (.table base) (.table overrides)) {key : String} {old : Value}
    (hold : (Settings.mk base).narrative? key = some old) :
    ∃ new, (Settings.mk (Overlay.deepEntries base overrides)).narrative? key = some new ∧
      new.kind = old.kind := by
  rw [narrative?] at hold
  split at hold
  · next narrative hnarrative =>
    rw [narrative?, Overlay.get?_deepEntries hnarrative]
    cases hgiven : Entries.get? "narrative" overrides with
    | none => exact ⟨old, hold, rfl⟩
    | some new =>
      have hinner := hfits.get? hnarrative hgiven
      obtain ⟨given, rfl⟩ := hinner.exists_table
      simp only [Overlay.deep_table, Overlay.get?_deepEntries hold]
      cases hvalue : Entries.get? key given with
      | none => exact ⟨old, rfl, rfl⟩
      | some value => exact ⟨_, rfl, (hinner.get? hold hvalue).kind_deep⟩
  · cases hold

theorem isTyped_packaged : packaged.IsTyped := ⟨⟨_, rfl⟩, ⟨_, rfl⟩⟩

/-- Overrides that fit the packaged settings leave their values of the right kinds. -/
theorem isTyped_deep (hfits : Overlay.Fits (.table packaged.entries) (.table overrides)) :
    (Settings.mk (Overlay.deepEntries packaged.entries overrides)).IsTyped := by
  obtain ⟨⟨name, hname⟩, seed, hseed⟩ := isTyped_packaged
  obtain ⟨rules, hrules, hstr⟩ := exists_narrative?_deep hfits hname
  obtain ⟨number, hnumber, hint⟩ := exists_narrative?_deep hfits hseed
  obtain ⟨text, rfl⟩ := Value.kind_eq_str_iff.1 hstr
  obtain ⟨n, rfl⟩ := Value.kind_eq_int_iff.1 hint
  exact ⟨⟨text, hrules⟩, n, hnumber⟩

/-- The settings in force after a load have values of the right kinds if those before it had. -/
theorem IsTyped.after {current : Settings} (h : current.IsTyped) (hread : read.Lawful)
    (call : Option String) : (current.after (loadWith read call)).IsTyped := by
  cases hoverrides : overrides? read call with
  | none => rwa [loadWith_of_overrides?_eq_none hread hoverrides]
  | some overrides =>
    by_cases hfits : Overlay.Fits (.table packaged.entries) (.table overrides)
    · rw [loadWith_of_fits hread hoverrides hfits]
      exact isTyped_deep hfits
    · obtain ⟨conflict, hload⟩ := loadWith_of_not_fits hread hoverrides hfits
      rwa [hload]

/-! ## Series of loads -/

/-- A host begins with the packaged settings, and after any loads they have values of the right
kinds. -/
theorem exists_loadAll (hread : read.Lawful) (calls : List (Option String)) :
    ∃ settings, loadAll read calls = .ok settings ∧ settings.IsTyped := by
  have hbegun : loadWith read none = .ok packaged := by
    rw [loadWith_of_overrides? hread rfl, under, Overlay.merge]
  have hrun : ∀ current : Settings, current.IsTyped →
      (calls.foldl (fun current call => current.after (loadWith read call)) current).IsTyped := by
    induction calls with
    | nil => exact fun _ h => h
    | cons call calls ih => exact fun current h => ih _ (h.after hread call)
  rw [loadAll, hbegun]
  exact ⟨_, rfl, hrun packaged isTyped_packaged⟩

/-- One more load takes effect after the others. -/
theorem loadAll_append {calls : List (Option String)} {settings : Settings}
    (h : loadAll read calls = .ok settings) (call : Option String) :
    loadAll read (calls ++ [call]) = .ok (settings.after (loadWith read call)) := by
  obtain ⟨begun, hbegun, rfl⟩ := map_eq_ok.1 h
  rw [loadAll, hbegun, Except.map, List.foldl_append]
  rfl

/-- Whatever a lawful reader makes of texts, a host begins and any loads leave it with settings in
which the rules are named by a text and the seed is a whole number, which is given unless it is
negative. One more load fails, for its text is no document or it does not fit the packaged settings,
and changes nothing; or its overrides fit, and the settings are then the packaged ones under these
overrides alone. -/
theorem loadAll_spec (hread : read.Lawful) (calls : List (Option String)) (call : Option String) :
    ∃ settings, loadAll read calls = .ok settings ∧
      (∃ name, settings.narrative? "RULES" = some (.str name)) ∧
      (∃ seed, settings.narrative? "SEED" = some (.int seed) ∧
        settings.seed? = if seed < 0 then none else some seed) ∧
      match overrides? read call with
      | none =>
        loadWith read call = .error .badSyntax ∧ loadAll read (calls ++ [call]) = .ok settings
      | some overrides =>
        (Overlay.Fits (.table packaged.entries) (.table overrides) →
          loadWith read call = .ok ⟨Overlay.deepEntries packaged.entries overrides⟩ ∧
            loadAll read (calls ++ [call]) =
              .ok ⟨Overlay.deepEntries packaged.entries overrides⟩) ∧
        (¬ Overlay.Fits (.table packaged.entries) (.table overrides) →
          (∃ conflict, loadWith read call = .error (.conflict conflict)) ∧
            loadAll read (calls ++ [call]) = .ok settings) := by
  obtain ⟨settings, hsettings, hname, seed, hseed⟩ := exists_loadAll hread calls
  refine ⟨settings, hsettings, hname, ⟨seed, hseed, by rw [seed?, hseed]⟩, ?_⟩
  rw [loadAll_append hsettings]
  cases hoverrides : overrides? read call with
  | none =>
    have hload := loadWith_of_overrides?_eq_none hread hoverrides
    exact ⟨hload, by rw [hload, after]⟩
  | some overrides =>
    refine ⟨fun hfits => ?_, fun hfits => ?_⟩
    · have hload := loadWith_of_fits hread hoverrides hfits
      exact ⟨hload, by rw [hload, after]⟩
    · obtain ⟨conflict, hload⟩ := loadWith_of_not_fits hread hoverrides hfits
      exact ⟨⟨conflict, hload⟩, by rw [hload, after]⟩

end Settings

/-! ## The reader of documents -/

/-- Whether entries are what the packaged settings say. -/
def Settings.isPackaged : Option (List (String × Value)) → Bool
  | some [(narrative, .table [(rules, .str name), (seed, .int number)])] => decide
    (narrative = "narrative" ∧ rules = "RULES" ∧ name = "rules.toml" ∧ seed = "SEED" ∧ number = -1)
  | _ => false

/-- The reader of TOML documents is lawful. -/
theorem Toml.lawful_read? : TomlReader.Lawful read? where
  distinct := distinct_of_read?
  packaged := by
    have hread : Settings.isPackaged (read? Settings.packagedText) = true := by decide +kernel
    rw [Settings.isPackaged.eq_def] at hread
    split at hread
    · next heq =>
      obtain ⟨rfl, rfl, rfl, rfl, rfl⟩ := of_decide_eq_true hread
      exact heq
    · cases hread

namespace Settings

/-- A host has loaded a seed. A text in which another seed comes before rules that are no text is
refused, and the first seed stays. -/
theorem firstSeed_stays :
    let first := some "[narrative]\nSEED = 5"
    let second := some "[narrative]\nSEED = 7\nRULES = 1"
    ∃ settings, loadAll Toml.read? [first] = .ok settings ∧ settings.seed? = some 5 ∧
      (∃ conflict, loadWith Toml.read? second = .error (.conflict conflict)) ∧
      loadAll Toml.read? [first, second] = .ok settings := by
  intro first second
  have hfirst : (Toml.read? "[narrative]\nSEED = 5").map (fun overrides =>
      ((Overlay.merge [] packaged.entries overrides).conflict.isNone,
        (Settings.mk (Overlay.deepEntries packaged.entries overrides)).seed?)) =
      some (true, some 5) := by decide +kernel
  have hsecond : (Toml.read? "[narrative]\nSEED = 7\nRULES = 1").map (fun overrides =>
      (Overlay.merge [] packaged.entries overrides).conflict.isNone) = some false := by
    decide +kernel
  have hlawful := Toml.lawful_read?
  -- What the reader makes of the two texts is known; nothing else of it may be unfolded.
  generalize Toml.read? = read at hfirst hsecond hlawful ⊢
  obtain ⟨fitting, hfitting, hseed⟩ := Option.map_eq_some_iff.1 hfirst
  obtain ⟨clashing, hclashing, hconflict⟩ := Option.map_eq_some_iff.1 hsecond
  obtain ⟨hnone, hseed⟩ := Prod.mk.inj hseed
  have hfits : Overlay.Fits (.table packaged.entries) (.table fitting) :=
    (Overlay.merge_spec [] _ _ distinct_packaged (hlawful.distinct hfitting)).2
      (Option.isNone_iff_eq_none.1 hnone)
  have hclash : ¬ Overlay.Fits (.table packaged.entries) (.table clashing) := by
    intro h
    rw [(Overlay.merge_spec [] _ _ distinct_packaged (hlawful.distinct hclashing)).1 h]
      at hconflict
    cases hconflict
  obtain ⟨begun, _, _, _, hloads⟩ := loadAll_spec hlawful [] first
  obtain ⟨settings, hsettings, _, _, hrefused⟩ := loadAll_spec hlawful [first] second
  simp only [overrides?, first, second, hfitting, hclashing] at hloads hrefused
  cases hsettings.symm.trans (hloads.1 hfits).2
  obtain ⟨hrefusal, hkept⟩ := hrefused.2 hclash
  exact ⟨_, hsettings, hseed, hrefusal, hkept⟩

end Settings

end FactRules

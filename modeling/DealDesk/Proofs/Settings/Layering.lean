import DealDesk.Desk.State
import DealDesk.Proofs.Register.Gather
import DealDesk.Settings.Layers

/-!
# Settings come from the highest layer that has them

* `Address.Plain` — keys that are no paths. `Address.plain_lowerCase` has the names of variables
  among them.
* `Layer.get?_withEntries` — a layer with entries on top gives what the entries set, and below that
  what it gave before.
* `Settings.filed?` — the entries of the file that is read. `Settings.overFile_of_unregistered` says
  which files are not.
* `Surroundings.chosen` — the entry that counts for a setting: the variable's, or else the file's,
  or else the given one.
* `Settings.assemble` — settings converted from one entry each, and checked.

`load_takes_highest` is the main result: loading converts the chosen entries, and nothing else.
-/

namespace DealDesk

/-! ## Keys -/

/-- What holds of every ASCII character is checked one by one. -/
@[elab_as_elim]
theorem Text.of_ascii {P : Char → Prop} (c : Char) (hc : c.toNat < 128)
    (h : ∀ n < 128, P (Char.ofNat n)) : P c :=
  c.ofNat_toNat ▸ h c.toNat hc

namespace Address

/-- Neither a point nor a bracket stands in the key. -/
def Plain (key : String) : Prop := '.' ∉ key.toList ∧ '[' ∉ key.toList

/-- **A plain key names a setting as a whole.** -/
theorem ofKey_of_plain {key : String} (h : Plain key) : ofKey key = .whole key := by
  unfold ofKey
  dsimp only
  cases hrest : key.toList.dropWhile isNameChar with
  | nil => split <;> rfl
  | cons c rest =>
    have hmem : c ∈ key.toList := (List.dropWhile_suffix _).subset (hrest ▸ List.mem_cons_self)
    have hpoint : c ≠ '.' := fun he => h.1 (he ▸ hmem)
    have hbracket : c ≠ '[' := fun he => h.2 (he ▸ hmem)
    have htail : isTail (c :: rest).length (c :: rest) = false := by
      rw [List.length_cons, isTail]
      · exact nofun
      · exact nofun
      · rintro _ _ - ⟨⟩
        exact hpoint rfl
      · rintro _ _ - ⟨⟩
        exact hbracket rfl
    rw [htail, Bool.not_false, Bool.or_true, if_pos rfl]

/-- Letters, digits, underscores and hyphens. -/
def IsWord (name : String) : Prop := ∀ c ∈ name.toList, Toml.isBare c = true

theorem lowerChar_of_isBare {c : Char} (h : Toml.isBare c = true) :
    c ≠ 'Σ' ∧ ∀ d ∈ Text.lowerChar c, d ≠ '.' ∧ d ≠ '[' := by
  have hlt : c.toNat < 128 := by
    simp only [Toml.isBare, Toml.isLatin, Decimal.isDigit, Bool.or_eq_true, Bool.and_eq_true,
      decide_eq_true_eq, Char.le_def, UInt32.le_iff_toNat_le] at h
    rcases h with (((h | h) | h) | rfl) | rfl
    · exact Nat.lt_of_le_of_lt h.2 (by decide)
    · exact Nat.lt_of_le_of_lt h.2 (by decide)
    · exact Nat.lt_of_le_of_lt h.2 (by decide)
    · decide
    · decide
  have hc : Toml.isBare c = true → c ≠ 'Σ' ∧
      ((Text.lowerChar c).all fun d => d ≠ '.' ∧ d ≠ '[') = true := by
    refine Text.of_ascii c hlt ?_
    decide +kernel
  obtain ⟨hsigma, hforms⟩ := hc h
  exact ⟨hsigma, fun d hd => of_decide_eq_true (List.all_eq_true.1 hforms d hd)⟩

/-- A word stays plain in lower case. -/
theorem plain_lowerCase {name : String} (h : IsWord name) : Plain (Text.lowerCase name) := by
  have hall : ∀ (cs before : List Char), (∀ c ∈ cs, Toml.isBare c = true) →
      ∀ d ∈ Text.lowerAfter before cs, d ≠ '.' ∧ d ≠ '[' := by
    intro cs
    induction cs with
    | nil => exact fun _ _ d hd => by cases hd
    | cons c cs ih =>
      intro before hcs d hd
      obtain ⟨hc, hcs⟩ := List.forall_mem_cons.1 hcs
      obtain ⟨hsigma, hform⟩ := lowerChar_of_isBare hc
      rw [Text.lowerAfter, if_neg hsigma] at hd
      rcases List.mem_append.1 hd with hd | hd
      · exact hform d hd
      · exact ih _ hcs d hd
  have hname := hall name.toList [] h
  rw [Plain, Text.lowerCase, String.toList_ofList]
  exact ⟨fun hd => (hname _ hd).1 rfl, fun hd => (hname _ hd).2 rfl⟩

end Address

/-! ## Entries on top of a layer -/

namespace Layer

variable {l : Layer} {origin key : String} {entries : List (String × Toml)}

/-- What a value sets, if anything. -/
def entryOf (origin : String) : Toml → Option Entry
  | .table [] => none
  | .table (_ :: _) => some ⟨.map, none⟩
  | .whole n => some ⟨.whole n, some origin⟩
  | .real x => some ⟨.real x, some origin⟩
  | .flag b => some ⟨.flag b, some origin⟩
  | .text s => some ⟨.text s, some origin⟩
  | .list _ => some ⟨.sequence, some origin⟩

theorem putValue_eq (name : String) (v : Toml) (l : Layer) :
    putValue origin name v l = match entryOf origin v with
      | some e => l.put name e
      | none => l := by
  cases v with
  | table t => cases t <;> rfl
  | _ => rfl

theorem get?_putValue_self (v : Toml) :
    (putValue origin key v l).get? key = (entryOf origin v).or (l.get? key) := by
  rw [putValue_eq]
  cases entryOf origin v with
  | none => rfl
  | some e => exact Table.get?_put_self l key e

theorem get?_putValue_of_ne {name : String} (v : Toml) (h : name ≠ key) :
    (putValue origin name v l).get? key = l.get? key := by
  rw [putValue_eq]
  cases entryOf origin v with
  | none => rfl
  | some e => exact Table.get?_put_of_ne l e h

/-- **Entries with plain keys, no two of them equal, hide what they set and nothing else.** -/
theorem get?_withEntries (hplain : ∀ e ∈ entries, Address.Plain e.1)
    (hdistinct : (Table.keys entries).Nodup) :
    (l.withEntries origin entries).get? key =
      ((Table.get? entries key).bind (entryOf origin)).or (l.get? key) := by
  induction entries generalizing l with
  | nil => rfl
  | cons e rest ih =>
    obtain ⟨name, v⟩ := e
    obtain ⟨hname, hplain⟩ := List.forall_mem_cons.1 hplain
    obtain ⟨hnew, hdistinct⟩ := List.nodup_cons.1 hdistinct
    have hput : putKey origin name v l = putValue origin name v l := by
      rw [putKey, Address.ofKey_of_plain hname]
    show (withEntries origin rest (putKey origin name v l)).get? key = _
    rw [ih hplain hdistinct, hput, Table.get?]
    by_cases hk : name = key
    · subst hk
      rw [Table.get?_eq_none hnew, if_pos rfl, get?_putValue_self]
      rfl
    · rw [if_neg hk, get?_putValue_of_ne v hk]

end Layer

/-! ## The file -/

/-- A document has no name twice. -/
theorem Toml.nodup_keys_of_ofText? {text : String} {entries : List (String × Toml)}
    (h : Toml.ofText? text = some entries) : (Table.keys entries).Nodup := by
  obtain ⟨blocks, -, h⟩ := Option.bind_eq_some_iff.1 h
  unfold Block.document at h
  split at h
  · obtain ⟨_, -, rfl⟩ := Option.map_eq_some_iff.1 h
    exact List.nodup_nil
  · unfold Block.plainTable at h
    split at h
    · cases h
    · simp only [Option.bind_eq_bind, Option.bind_eq_some_iff] at h
      obtain ⟨own, -, mine, -, inner, -, h⟩ := h
      unfold Draft.distinct? at h
      split at h
      · rename_i hnodup
        cases h
        exact hnodup
      · cases h

namespace Settings

/-- Where the file's entries come from, and what they are; no file has none. A name has to stand for
one file alone, which is in TOML. -/
def filed? (s : Surroundings) : Option String → Option (String × List (String × Toml))
  | none => some ("", [])
  | some name =>
    match s.found name with
    | [⟨file, some .toml, text⟩] =>
      (Toml.ofText? text).map fun entries => (FileName.seenFrom s.folder file, entries)
    | _ => none

variable {s : Surroundings} {file : Option String} {name origin : String}
  {entries : List (String × Toml)}

theorem filed?_eq_some (h : filed? s (some name) = some (origin, entries)) :
    ∃ file text, s.found name = [⟨file, some .toml, text⟩] ∧ Toml.ofText? text = some entries ∧
      FileName.seenFrom s.folder file = origin := by
  rw [filed?] at h
  split at h
  · rename_i file text hfound
    obtain ⟨_, htext, he⟩ := Option.map_eq_some_iff.1 h
    cases he
    exact ⟨file, text, hfound, htext, rfl⟩
  · cases h

theorem nodup_keys_of_filed? (h : filed? s file = some (origin, entries)) :
    (Table.keys entries).Nodup := by
  cases file with
  | none =>
    cases h
    exact List.nodup_nil
  | some name =>
    obtain ⟨_, _, -, htext, -⟩ := filed?_eq_some h
    exact Toml.nodup_keys_of_ofText? htext

/-- The entries of the file lie on top. -/
theorem overFile_of_filed? {l : Layer} (h : filed? s (some name) = some (origin, entries)) :
    overFile s name l = .ok (l.withEntries origin entries) := by
  obtain ⟨_, _, hfound, htext, rfl⟩ := filed?_eq_some h
  simp only [overFile, hfound, htext]

/-- **A file is read only if the end of its name stands for a format**, however it is written. -/
theorem overFile_of_unregistered {l : Layer} {stem text : String}
    (hname : FileName.plain? name = some stem) (hfile : s.files.get? stem = some text)
    (hend : FileName.format? stem = none) :
    overFile s name l = .error (.missingFile (.unregistered (FileName.rooted s.folder name))) := by
  have hfound : s.found name = [⟨stem, none, text⟩] := by
    simp only [Surroundings.found, hname, Option.bind_some, Surroundings.file?, hfile,
      Option.map_some, hend]
  simp only [overFile, hfound]

example : standard.load ⟨[("desk.conf", "workers = 8")], [], "/srv"⟩ (some "desk.conf") =
    .error (.missingFile (.unregistered "/srv/desk.conf")) := by
  decide +kernel

end Settings

/-! ## The environment -/

namespace Surroundings

variable {s : Surroundings} {key : String}

/-- Names of variables are words, which stay distinct in lower case. -/
structure Orderly (s : Surroundings) : Prop where
  words : ∀ e ∈ s.environment, Address.IsWord e.1
  distinct : (s.environment.map fun e => Text.lowerCase e.1).Nodup

/-- The text of the variable for a setting; capitals or not, its name is the prefix and the key. -/
def variableText? (s : Surroundings) (key : String) : Option String :=
  (s.environment.find? fun e => Text.lowerCase e.1 = variablePrefix ++ key).map Prod.snd

/-- The setting that a variable is for, if any. -/
def keyOf? (name : String) : Option String :=
  (variablePrefix.toList.isPrefixOf? (Text.lowerCase name).toList).map String.ofList

theorem keyOf?_eq_some {name key : String} :
    keyOf? name = some key ↔ Text.lowerCase name = variablePrefix ++ key := by
  rw [keyOf?, Option.map_eq_some_iff]
  generalize Text.lowerCase name = name
  constructor
  · rintro ⟨cs, hcs, rfl⟩
    rw [List.isPrefixOf?_eq_some_iff_append_eq] at hcs
    rw [← String.toList_inj, String.toList_append, String.toList_ofList, hcs]
  · rintro rfl
    refine ⟨key.toList, ?_, String.ofList_toList⟩
    rw [List.isPrefixOf?_eq_some_iff_append_eq, String.toList_append]

theorem settingVariables_eq (s : Surroundings) : s.settingVariables = s.environment.filterMap
    fun e => (keyOf? e.1).map fun key => (key, Toml.text e.2) := by
  simp only [settingVariables, keyOf?, Option.map_map]
  rfl

theorem get?_settingVariables :
    Table.get? s.settingVariables key = (s.variableText? key).map Toml.text := by
  rw [settingVariables_eq, variableText?]
  induction s.environment with
  | nil => rfl
  | cons e rest ih =>
    cases hk : keyOf? e.1 with
    | none =>
      have hne : Text.lowerCase e.1 ≠ variablePrefix ++ key := by
        intro he
        rw [keyOf?_eq_some.2 he] at hk
        cases hk
      rw [List.filterMap_cons_none (by rw [hk]; rfl), List.find?_cons_of_neg (by simpa using hne)]
      exact ih
    | some name =>
      have hname := keyOf?_eq_some.1 hk
      rw [List.filterMap_cons_some (by rw [hk]; rfl), Table.get?]
      by_cases he : name = key
      · rw [if_pos he, List.find?_cons_of_pos (by simpa using he ▸ hname)]
        rfl
      · have hne : Text.lowerCase e.1 ≠ variablePrefix ++ key := by
          intro hkey
          exact he (Option.some.inj (hk.symm.trans (keyOf?_eq_some.2 hkey)))
        rw [if_neg he, List.find?_cons_of_neg (by simpa using hne)]
        exact ih

theorem mem_settingVariables {e : String × Toml} (h : e ∈ s.settingVariables) :
    ∃ v ∈ s.environment, Text.lowerCase v.1 = variablePrefix ++ e.1 := by
  rw [settingVariables_eq] at h
  obtain ⟨v, hv, h⟩ := List.mem_filterMap.1 h
  obtain ⟨key, hkey, rfl⟩ := Option.map_eq_some_iff.1 h
  exact ⟨v, hv, keyOf?_eq_some.1 hkey⟩

theorem Orderly.plain (h : s.Orderly) : ∀ e ∈ s.settingVariables, Address.Plain e.1 := by
  intro e he
  obtain ⟨v, hv, hname⟩ := mem_settingVariables he
  have hplain := Address.plain_lowerCase (h.words v hv)
  rw [hname, Address.Plain, String.toList_append] at hplain
  exact ⟨fun hm => hplain.1 (List.mem_append_right _ hm),
    fun hm => hplain.2 (List.mem_append_right _ hm)⟩

theorem Orderly.nodup_keys (h : s.Orderly) : (Table.keys s.settingVariables).Nodup := by
  rw [settingVariables_eq]
  have hdistinct := h.distinct
  generalize s.environment = environment at hdistinct
  induction environment with
  | nil => exact List.nodup_nil
  | cons e rest ih =>
    obtain ⟨hnew, hdistinct⟩ := List.nodup_cons.1 hdistinct
    cases hk : keyOf? e.1 with
    | none =>
      rw [List.filterMap_cons_none (by rw [hk]; rfl)]
      exact ih hdistinct
    | some name =>
      rw [List.filterMap_cons_some (by rw [hk]; rfl)]
      refine List.nodup_cons.2 ⟨fun hmem => hnew ?_, ih hdistinct⟩
      obtain ⟨⟨key, v⟩, he, hkey⟩ := List.mem_map.1 hmem
      obtain ⟨x, hx, he⟩ := List.mem_filterMap.1 he
      obtain ⟨_, hx', he⟩ := Option.map_eq_some_iff.1 he
      cases he
      cases hkey
      have hname := keyOf?_eq_some.1 hx'
      exact List.mem_map.2 ⟨x, hx, hname.trans (keyOf?_eq_some.1 hk).symm⟩

/-- The entry that counts for a setting, given what lies below file and environment. -/
def chosen (s : Surroundings) (origin : String) (entries : List (String × Toml)) (key : String)
    (given : Content) : Entry :=
  match s.variableText? key with
  | some text => ⟨.text text, some Settings.environmentName⟩
  | none => ((Table.get? entries key).bind (Layer.entryOf origin)).getD ⟨given, none⟩

end Surroundings

/-! ## Loading -/

section Results

variable {ε α β : Type} {x : Except ε α} {b : β}

/-- A sequence gives a result if both its parts do. -/
theorem bind_eq_ok_iff {f : α → Except ε β} : x >>= f = .ok b ↔ ∃ a, x = .ok a ∧ f a = .ok b := by
  cases x with
  | error e => exact ⟨nofun, fun ⟨_, h, _⟩ => nomatch h⟩
  | ok a => exact ⟨fun h => ⟨a, rfl, h⟩, fun ⟨_, h, hf⟩ => by cases h; exact hf⟩

theorem map_eq_ok_iff {f : α → β} : x.map f = .ok b ↔ ∃ a, x = .ok a ∧ f a = b := by
  cases x with
  | error e => exact ⟨nofun, fun ⟨_, h, _⟩ => nomatch h⟩
  | ok a =>
    exact ⟨fun h => ⟨a, rfl, Except.ok.inj h⟩, fun ⟨_, h, hf⟩ => by cases h; exact congrArg _ hf⟩

end Results

namespace Settings

variable {base c : Settings} {s : Surroundings} {file : Option String} {origin : String}
  {entries : List (String × Toml)} {choose : String → Content → Entry}

/-- The settings of five entries, chosen in view of the given settings, if they pass the check. -/
def assemble (choose : String → Content → Entry) (base : Settings) :
    Except SettingsError Settings := do
  let workers ← (choose "workers" (.whole base.workers.toNat)).toCount "workers"
  let maxRetries ← (choose "max_retries" (.whole base.maxRetries.toNat)).toCount "max_retries"
  let retryBaseMs ← (choose "retry_base_ms" (.whole base.retryBaseMs.toNat)).toCount "retry_base_ms"
  let retryMaxMs ← (choose "retry_max_ms" (.whole base.retryMaxMs.toNat)).toCount "retry_max_ms"
  let retryRejections ←
    (choose "retry_rejections" (.flag base.retryRejections)).toFlag "retry_rejections"
  let settings : Settings :=
    { workers := UInt64.ofNat workers, maxRetries := UInt32.ofNat maxRetries
      retryBaseMs := UInt64.ofNat retryBaseMs, retryMaxMs := UInt64.ofNat retryMaxMs
      retryRejections := retryRejections }
  settings.check
  return settings

/-- Each setting is what its entry is converted to; of retries the remainder modulo `2 ^ 32`. -/
structure Converted (choose : String → Content → Entry) (base c : Settings) : Prop where
  workers : ((choose "workers" (.whole base.workers.toNat)).toCount "workers").map UInt64.ofNat =
    .ok c.workers
  maxRetries : ((choose "max_retries" (.whole base.maxRetries.toNat)).toCount "max_retries").map
    UInt32.ofNat = .ok c.maxRetries
  retryBaseMs : ((choose "retry_base_ms" (.whole base.retryBaseMs.toNat)).toCount
    "retry_base_ms").map UInt64.ofNat = .ok c.retryBaseMs
  retryMaxMs : ((choose "retry_max_ms" (.whole base.retryMaxMs.toNat)).toCount "retry_max_ms").map
    UInt64.ofNat = .ok c.retryMaxMs
  retryRejections : (choose "retry_rejections" (.flag base.retryRejections)).toFlag
    "retry_rejections" = .ok c.retryRejections

theorem check_eq_ok_iff : c.check = .ok () ↔ 1 ≤ c.workers ∧ c.retryBaseMs ≤ c.retryMaxMs := by
  have hworkers : c.workers = 0 ↔ ¬1 ≤ c.workers := by
    rw [UInt64.le_iff_toNat_le, ← UInt64.toNat_inj, UInt64.toNat_zero, UInt64.toNat_one]
    omega
  unfold check
  by_cases hw : c.workers = 0
  · rw [if_pos hw]
    exact ⟨nofun, fun h => absurd h.1 (hworkers.1 hw)⟩
  · rw [if_neg hw]
    by_cases hlt : c.retryMaxMs < c.retryBaseMs
    · rw [if_pos hlt]
      exact ⟨nofun, fun h => absurd hlt (UInt64.not_lt.2 h.2)⟩
    · rw [if_neg hlt]
      exact ⟨fun _ => ⟨not_not.1 (mt hworkers.2 hw), UInt64.not_lt.1 hlt⟩, fun _ => rfl⟩

/-- **Settings are assembled if every entry can be converted and the check is passed**, and else
not. -/
theorem assemble_eq_ok_iff : assemble choose base = .ok c ↔
    Converted choose base c ∧ c.check = .ok () := by
  unfold assemble
  constructor
  · intro h
    obtain ⟨_, h₁, h⟩ := bind_eq_ok_iff.1 h
    obtain ⟨_, h₂, h⟩ := bind_eq_ok_iff.1 h
    obtain ⟨_, h₃, h⟩ := bind_eq_ok_iff.1 h
    obtain ⟨_, h₄, h⟩ := bind_eq_ok_iff.1 h
    obtain ⟨_, h₅, h⟩ := bind_eq_ok_iff.1 h
    obtain ⟨_, hcheck, h⟩ := bind_eq_ok_iff.1 h
    cases h
    exact ⟨⟨map_eq_ok_iff.2 ⟨_, h₁, rfl⟩, map_eq_ok_iff.2 ⟨_, h₂, rfl⟩,
      map_eq_ok_iff.2 ⟨_, h₃, rfl⟩, map_eq_ok_iff.2 ⟨_, h₄, rfl⟩, h₅⟩, hcheck⟩
  · rintro ⟨⟨h₁, h₂, h₃, h₄, h₅⟩, hcheck⟩
    obtain ⟨_, h₁, hw⟩ := map_eq_ok_iff.1 h₁
    obtain ⟨_, h₂, hm⟩ := map_eq_ok_iff.1 h₂
    obtain ⟨_, h₃, hb⟩ := map_eq_ok_iff.1 h₃
    obtain ⟨_, h₄, hc⟩ := map_eq_ok_iff.1 h₄
    refine bind_eq_ok_iff.2 ⟨_, h₁, bind_eq_ok_iff.2 ⟨_, h₂, bind_eq_ok_iff.2 ⟨_, h₃,
      bind_eq_ok_iff.2 ⟨_, h₄, bind_eq_ok_iff.2 ⟨_, h₅, ?_⟩⟩⟩⟩⟩
    rw [hw, hm, hb, hc]
    exact bind_eq_ok_iff.2 ⟨(), hcheck, rfl⟩

/-- The whole numbers among the settings can be held with a sign. -/
structure Held (base : Settings) : Prop where
  workers : base.workers.toNat ≤ Layer.maxHeld
  retryBaseMs : base.retryBaseMs.toNat ≤ Layer.maxHeld
  retryMaxMs : base.retryMaxMs.toNat ≤ Layer.maxHeld

/-- The lowest layer: every setting as it is given. -/
def layer (base : Settings) : Layer :=
  [("workers", ⟨.whole base.workers.toNat, none⟩),
   ("max_retries", ⟨.whole base.maxRetries.toNat, none⟩),
   ("retry_base_ms", ⟨.whole base.retryBaseMs.toNat, none⟩),
   ("retry_max_ms", ⟨.whole base.retryMaxMs.toNat, none⟩),
   ("retry_rejections", ⟨.flag base.retryRejections, none⟩)]

theorem Held.ofSettings (h : base.Held) : Layer.ofSettings base = .ok base.layer := by
  have hretries : base.maxRetries.toNat ≤ Layer.maxHeld :=
    Nat.le_trans (Nat.le_of_lt base.maxRetries.toNat_lt) (by decide)
  have held : ∀ {n}, n ≤ Layer.maxHeld → Layer.held n = .ok ⟨.whole n, none⟩ := fun h => if_pos h
  rw [Layer.ofSettings, held h.workers, held hretries, held h.retryBaseMs, held h.retryMaxMs]
  rfl

/-- A layer that has the chosen entries gives what they are assembled to. -/
theorem toSettings_eq_assemble {l : Layer}
    (h : ∀ key given, base.layer.get? key = some ⟨given, none⟩ →
      l.get? key = some (choose key given)) :
    (do let settings ← l.toSettings; settings.check; return settings) = assemble choose base := by
  have h₁ := h "workers" _ rfl
  have h₂ := h "max_retries" _ rfl
  have h₃ := h "retry_base_ms" _ rfl
  have h₄ := h "retry_max_ms" _ rfl
  have h₅ := h "retry_rejections" _ rfl
  simp only [Layer.toSettings, Layer.count, Layer.flag, h₁, h₂, h₃, h₄, h₅, assemble, bind_assoc,
    pure_bind]

/-- The layers together have the chosen entries. -/
theorem get?_layers {l : Layer} {key : String} {given : Content} (henv : s.Orderly)
    (hplain : ∀ e ∈ entries, Address.Plain e.1) (hdistinct : (Table.keys entries).Nodup)
    (h : l.get? key = some ⟨given, none⟩) :
    ((l.withEntries origin entries).withEntries environmentName s.settingVariables).get? key =
      some (s.chosen origin entries key given) := by
  rw [Layer.get?_withEntries henv.plain henv.nodup_keys, Layer.get?_withEntries hplain hdistinct,
    Surroundings.get?_settingVariables, h, Option.or_some, Surroundings.chosen]
  cases s.variableText? key <;> rfl

/-- **Loading assembles the chosen entries.** -/
theorem load_eq_assemble (hbase : base.Held) (henv : s.Orderly)
    (hfile : filed? s file = some (origin, entries)) (hplain : ∀ e ∈ entries, Address.Plain e.1) :
    load base s file = assemble (s.chosen origin entries) base := by
  have hlayers : _ = assemble (s.chosen origin entries) base :=
    toSettings_eq_assemble fun key given (h : base.layer.get? key = some ⟨given, none⟩) =>
      get?_layers henv hplain (nodup_keys_of_filed? hfile) h
  rw [load, hbase.ofSettings]
  cases file with
  | none =>
    cases hfile
    exact hlayers
  | some name =>
    show overFile s name base.layer >>= _ = _
    rw [overFile_of_filed? hfile]
    exact hlayers

/-- Given settings are converted to themselves. -/
theorem converted_given (h : ∀ key given, choose key given = ⟨given, none⟩) :
    Converted choose base base := by
  have count : ∀ (key : String) (n : Nat), (choose key (.whole n)).toCount key = .ok n := by
    intro key n
    rw [h, Entry.toCount]
    exact if_pos (Int.natCast_nonneg n)
  refine ⟨?_, ?_, ?_, ?_, ?_⟩
  · rw [count]; exact congrArg _ UInt64.ofNat_toNat
  · rw [count]; exact congrArg _ UInt32.ofNat_toNat
  · rw [count]; exact congrArg _ UInt64.ofNat_toNat
  · rw [count]; exact congrArg _ UInt64.ofNat_toNat
  · rw [h]; rfl

/-- **Settings are loaded from the highest layer that has them.** Let the given settings be no
larger than can be held, the file, if there is one, the only one that its name stands for, in TOML
and well formed with keys that are no paths, and the names of the variables words that stay distinct
in lower case. Then loading looks at one entry for
each setting, which is the variable's, or else the file's, or else the given one; what is hidden or
not asked for does not matter, not even for what goes wrong. Settings are loaded if and only if all
five entries can be converted, which gives them, there is a worker, and the base is within the cap;
a desk opens with any settings that are loaded; and if nothing is set, those are the given ones. -/
theorem load_takes_highest (hbase : base.Held) (henv : s.Orderly)
    (hfile : filed? s file = some (origin, entries)) (hplain : ∀ e ∈ entries, Address.Plain e.1) :
    load base s file = assemble (s.chosen origin entries) base ∧
    (∀ c, load base s file = .ok c ↔ Converted (s.chosen origin entries) base c ∧
      1 ≤ c.workers ∧ c.retryBaseMs ≤ c.retryMaxMs) ∧
    (∀ c, load base s file = .ok c → ∀ {β : Type} (broker : β) (register : Register),
      Desk.open? c broker register = .ok (Desk.closed c broker register)) ∧
    (file = none → (∀ e ∈ s.environment,
        ¬Surroundings.variablePrefix.toList <+: (Text.lowerCase e.1).toList) →
      base.check = .ok () → load base s file = .ok base) := by
  have hload := load_eq_assemble hbase henv hfile hplain
  refine ⟨hload, fun c => ?_, fun c hc β broker register => ?_, fun hnone hunset hcheck => ?_⟩
  · rw [hload, assemble_eq_ok_iff, check_eq_ok_iff]
  · rw [hload, assemble_eq_ok_iff] at hc
    rw [Desk.open?, hc.2]
  · subst hnone
    cases hfile
    have hgiven : ∀ key given, s.chosen "" [] key given = ⟨given, none⟩ := by
      intro key given
      have hnot : s.variableText? key = none := by
        rw [Surroundings.variableText?, Option.map_eq_none_iff, List.find?_eq_none]
        intro e he hname
        refine hunset e he ⟨key.toList, ?_⟩
        rw [of_decide_eq_true hname, String.toList_append]
      rw [Surroundings.chosen, hnot]
      rfl
    rw [hload, assemble_eq_ok_iff]
    exact ⟨converted_given hgiven, hcheck⟩

/-- Are these the entries, each of them a whole number? -/
def areWhole : List (String × Int) → List (String × Toml) → Bool
  | [], [] => true
  | (name, n) :: rest, (key, .whole m) :: entries => name = key && n = m && areWhole rest entries
  | _, _ => false

theorem eq_of_areWhole {expected : List (String × Int)} {entries : List (String × Toml)}
    (h : areWhole expected entries = true) :
    entries = expected.map fun e => (e.1, .whole e.2) := by
  fun_induction areWhole expected entries with
  | case1 => rfl
  | case2 name n rest key m entries ih =>
    simp only [Bool.and_eq_true, decide_eq_true_eq] at h
    obtain ⟨⟨rfl, rfl⟩, hrest⟩ := h
    rw [List.map_cons, ← ih hrest]
  | case3 => cases h

/-- The file asks for fewer workers than none and has a key that nobody asks for. -/
def patchwork : Surroundings where
  files := [("cfg.toml", "workers = -5\nmax_retries = 7\ncolour = 3\n")]
  environment := [("DEAL_PROCESSOR_WORKERS", "8"), ("deal_processor_Retry_rejections", "Yes"),
    ("HOME", "/root")]

theorem load_takes_highest_patchwork : standard.load patchwork (some "cfg.toml") =
    .ok { standard with workers := 8, maxRetries := 7, retryRejections := true } := by
  have hbase : standard.Held := ⟨by decide, by decide, by decide⟩
  have hwords : (patchwork.environment.all fun e => e.1.toList.all Toml.isBare) = true := by
    decide +kernel
  have henv : patchwork.Orderly :=
    ⟨fun e he => List.all_eq_true.1 (List.all_eq_true.1 hwords e he), by decide +kernel⟩
  have hfound : patchwork.found "cfg.toml" =
      [⟨"cfg.toml", some .toml, "workers = -5\nmax_retries = 7\ncolour = 3\n"⟩] := by
    decide +kernel
  have htext : Toml.ofText? "workers = -5\nmax_retries = 7\ncolour = 3\n" =
      some [("workers", .whole (-5)), ("max_retries", .whole 7), ("colour", .whole 3)] := by
    have hread : (Toml.ofText? "workers = -5\nmax_retries = 7\ncolour = 3\n").any
        (areWhole [("workers", -5), ("max_retries", 7), ("colour", 3)]) = true := by
      decide +kernel
    obtain ⟨entries, hentries, hwhole⟩ := (Option.any_eq_true _ _).1 hread
    rw [hentries, eq_of_areWhole hwhole]
    rfl
  have hfile : filed? patchwork (some "cfg.toml") = some ("cfg.toml",
      [("workers", .whole (-5)), ("max_retries", .whole 7), ("colour", .whole 3)]) := by
    simp only [filed?, hfound, htext, Option.map_some]
    rfl
  obtain ⟨-, hload, -⟩ := load_takes_highest hbase henv hfile (by simp [Address.Plain])
  refine (hload _).2 ⟨⟨?_, ?_, ?_, ?_, ?_⟩, by decide, by decide⟩
  all_goals decide +kernel

end Settings

end DealDesk

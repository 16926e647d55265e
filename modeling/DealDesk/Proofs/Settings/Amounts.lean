import DealDesk.Proofs.Settings.Layering
import DealDesk.Proofs.Toml.Wholes
import Mathlib.Algebra.Group.Nat.Defs

/-!
# Whole numbers among the settings

* `Amount` — a setting that is a whole number, with its key and its width.
* `lastFor?` — of some entries, the last that has to do with a setting. `Surroundings.topmost?`
  looks for it in the environment and then in the file.
* `Writes` — a value that writes a number: a whole number, or a text of decimal digits.
* `Layer.get?_withEntries_of_whole`, `Entry.toCount_of_writes` — the last entry for a setting is the
  one that is looked up, and it counts for the number it writes.

`load_keeps_amounts` is the main result: a number that is given comes out of loading as it is, if
its setting is wide enough; of a number of retries that is too large, the remainder comes out.
-/

namespace DealDesk

/-! ## Settings that are whole numbers -/

inductive Amount
  | workers
  | maxRetries
  | retryBaseMs
  | retryMaxMs
  deriving DecidableEq, Repr

namespace Amount

def key : Amount → String
  | .workers => "workers"
  | .maxRetries => "max_retries"
  | .retryBaseMs => "retry_base_ms"
  | .retryMaxMs => "retry_max_ms"

/-- One more than the largest number that the setting holds. -/
def limit : Amount → Nat
  | .maxRetries => 2 ^ 32
  | .workers | .retryBaseMs | .retryMaxMs => 2 ^ 64

end Amount

def Settings.amount (c : Settings) : Amount → Nat
  | .workers => c.workers.toNat
  | .maxRetries => c.maxRetries.toNat
  | .retryBaseMs => c.retryBaseMs.toNat
  | .retryMaxMs => c.retryMaxMs.toNat

/-! ## The entry that counts -/

/-- The setting that a key has to do with, as a whole or inside. -/
def Address.name : Address → String
  | .whole name | .member name | .item name => name

/-- The last entry that has to do with a setting. -/
def lastFor? (entries : List (String × Toml)) (name : String) : Option (String × Toml) :=
  entries.reverse.find? fun e => (Address.ofKey e.1).name = name

theorem lastFor?_concat (entries : List (String × Toml)) (e : String × Toml) (name : String) :
    lastFor? (entries ++ [e]) name =
      if (Address.ofKey e.1).name = name then some e else lastFor? entries name := by
  rw [lastFor?, List.reverse_append, List.reverse_singleton, List.singleton_append]
  by_cases h : (Address.ofKey e.1).name = name
  · rw [if_pos h, List.find?_cons_of_pos (by simpa using h)]
  · rw [if_neg h, List.find?_cons_of_neg (by simpa using h), lastFor?]

/-- The last entry of the environment for a setting, or else that of the file. -/
def Surroundings.topmost? (s : Surroundings) (entries : List (String × Toml)) (name : String) :
    Option (String × Toml) :=
  (lastFor? s.settingVariables name).or (lastFor? entries name)

namespace Layer

variable {l : Layer} {origin key name : String} {v : Toml} {entries : List (String × Toml)}

theorem get?_putInside_of_ne {content : Content} {other : String} (h : other ≠ name) :
    (putInside content other l).get? name = l.get? name := by
  unfold putInside
  split
  · rfl
  · exact Table.get?_put_of_ne l _ h

theorem get?_putKey_of_ne (h : (Address.ofKey key).name ≠ name) :
    (putKey origin key v l).get? name = l.get? name := by
  unfold putKey
  generalize Address.ofKey key = address at h
  cases address with
  | whole other => exact get?_putValue_of_ne v h
  | member other => exact get?_putInside_of_ne h
  | item other => exact get?_putInside_of_ne h

theorem withEntries_concat (e : String × Toml) :
    l.withEntries origin (entries ++ [e]) =
      putKey origin e.1 e.2 (l.withEntries origin entries) := by
  rw [withEntries, List.foldl_concat]
  rfl

/-- Entries that have nothing to do with a setting leave it as it is. -/
theorem get?_withEntries_of_none (h : lastFor? entries name = none) :
    (l.withEntries origin entries).get? name = l.get? name := by
  induction entries using List.reverseRecOn with
  | nil => rfl
  | append_singleton entries e ih =>
    rw [lastFor?_concat] at h
    split at h
    · cases h
    · rename_i hne
      rw [withEntries_concat, get?_putKey_of_ne hne, ih h]

/-- **The last entry for a setting counts**, if it sets the setting as a whole. -/
theorem get?_withEntries_of_whole {e : Entry} (h : lastFor? entries name = some (key, v))
    (hkey : Address.ofKey key = .whole name) (he : entryOf origin v = some e) :
    (l.withEntries origin entries).get? name = some e := by
  induction entries using List.reverseRecOn with
  | nil => cases h
  | append_singleton entries last ih =>
    rw [lastFor?_concat] at h
    split at h
    · cases h
      have hput : putKey origin key v (l.withEntries origin entries) =
          putValue origin name v (l.withEntries origin entries) := by
        rw [putKey, hkey]
      rw [withEntries_concat, hput, get?_putValue_self, he]
      rfl
    · rename_i hne
      rw [withEntries_concat, get?_putKey_of_ne hne, ih h]

end Layer

/-! ## Numbers in writing -/

/-- A value writes a number: as a whole number, or in decimal digits, a plus before them or not. -/
inductive Writes : Toml → Nat → Prop
  | whole (n : Nat) : Writes (.whole n) n
  | digits {text : String} {digits : List Char}
      (h : text.toList = digits ∨ text.toList = '+' :: digits) (hne : digits ≠ [])
      (hdigits : ∀ c ∈ digits, Decimal.isDigit c = true) :
      Writes (.text text) (Decimal.ofDigits digits)

/-- Digits and a plus have no lower case. -/
theorem Text.lowerChar_of_isDigit {c : Char} (h : Decimal.isDigit c = true ∨ c = '+') :
    Text.lowerChar c = [c] ∧ c ≠ 'Σ' := by
  have hlt : c.toNat < 128 := by
    rcases h with h | rfl
    · simp only [Decimal.isDigit, Bool.and_eq_true, decide_eq_true_eq, Char.le_def,
        UInt32.le_iff_toNat_le] at h
      exact Nat.lt_of_le_of_lt h.2 (by decide)
    · decide
  have hc : Decimal.isDigit c = true ∨ c = '+' → Text.lowerChar c = [c] ∧ c ≠ 'Σ' := by
    refine Text.of_ascii c hlt ?_
    decide +kernel
  exact hc h

/-- A text that begins with a digit or a plus is no word for a flag. -/
theorem Entry.lowerCase_notMem {text : String} {c : Char} {cs : List Char}
    (htext : text.toList = c :: cs) (hc : Decimal.isDigit c = true ∨ c = '+') :
    Text.lowerCase text ∉ yes ++ no := by
  obtain ⟨hform, hsigma⟩ := Text.lowerChar_of_isDigit hc
  have hhead : (Text.lowerCase text).toList.head? = some c := by
    rw [Text.lowerCase, String.toList_ofList, htext, Text.lowerAfter, if_neg hsigma, hform]
    rfl
  have hwords : ((yes ++ no).filterMap (·.toList.head?)).all
      (fun d => !(Decimal.isDigit d || d == '+')) = true := by
    decide +kernel
  intro hmem
  have hother := List.all_eq_true.1 hwords c (List.mem_filterMap.2 ⟨_, hmem, hhead⟩)
  rcases hc with hc | rfl
  · rw [hc] at hother
    cases hother
  · cases hother

theorem Decimal.readWhole_of_digits {text : String} {digits : List Char} (bound : Nat)
    (h : text.toList = digits ∨ text.toList = '+' :: digits) (hne : digits ≠ [])
    (hdigits : ∀ c ∈ digits, isDigit c = true) :
    readWhole bound text = if ofDigits digits < bound then some (ofDigits digits) else none := by
  have hspan : readWhole bound text = if digits.isEmpty || !digits.all isDigit then none
      else if ofDigits digits < bound then some (ofDigits digits) else none := by
    rcases h with h | h
    · simp only [readWhole, h]
      split
      · cases hdigits '+' List.mem_cons_self
      · rfl
    · simp only [readWhole, h]
  have hempty : digits.isEmpty = false := by simpa using hne
  have hall : digits.all isDigit = true := List.all_eq_true.2 hdigits
  rw [hspan, hempty, hall]
  rfl

/-- **An entry counts for the number that it writes**, or else for none. -/
theorem Entry.toCount_of_writes {v : Toml} {n m : Nat} {origin key : String} {e : Entry}
    (hv : Writes v n) (hfits : v.Fits) (he : Layer.entryOf origin v = some e)
    (hm : e.toCount key = .ok m) : m = n ∧ n < 2 ^ 64 := by
  cases hv with
  | whole n =>
    cases he
    have hcount : toCount key ⟨.whole n, some origin⟩ = .ok n := by
      rw [toCount]
      exact if_pos (Int.natCast_nonneg n)
    rw [hcount] at hm
    cases hm
    have hlt : (n : Int) < 2 ^ 63 := hfits.2
    exact ⟨rfl, by omega⟩
  | @digits text digits h hne hdigits =>
    cases he
    have hword : Text.lowerCase text ∉ yes ++ no := by
      rcases h with h | h
      · cases digits with
        | nil => exact absurd rfl hne
        | cons c cs => exact lowerCase_notMem h (.inl (hdigits c List.mem_cons_self))
      · exact lowerCase_notMem h (.inr rfl)
    obtain ⟨hyes, hno⟩ := not_or.1 (mt List.mem_append.2 hword)
    simp only [toCount, if_neg hyes, if_neg hno,
      Decimal.readWhole_of_digits (Nat.pow 2 64) h hne hdigits] at hm
    by_cases hlt : Decimal.ofDigits digits < Nat.pow 2 64
    · rw [if_pos hlt] at hm
      cases hm
      exact ⟨rfl, hlt⟩
    · rw [if_neg hlt] at hm
      cases hm

/-! ## Loading -/

namespace Settings

variable {base c : Settings} {s : Surroundings} {file : Option String} {origin key : String}
  {entries : List (String × Toml)} {v : Toml} {a : Amount} {n : Nat}

/-- A setting that is looked up is kept as far as it is wide. -/
theorem amount_of_toSettings {l : Layer} {e : Entry} (h : l.toSettings = .ok c)
    (hget : l.get? a.key = some e) : ∃ m, e.toCount a.key = .ok m ∧ c.amount a = m % a.limit := by
  obtain ⟨workers, h₁, h⟩ := bind_eq_ok_iff.1 h
  obtain ⟨maxRetries, h₂, h⟩ := bind_eq_ok_iff.1 h
  obtain ⟨retryBaseMs, h₃, h⟩ := bind_eq_ok_iff.1 h
  obtain ⟨retryMaxMs, h₄, h⟩ := bind_eq_ok_iff.1 h
  obtain ⟨_, -, h⟩ := bind_eq_ok_iff.1 h
  cases h
  have hcount : ∀ absent, l.count a.key absent = e.toCount a.key := by
    intro absent
    rw [Layer.count, hget]
  cases a with
  | workers => exact ⟨workers, (hcount _).symm.trans h₁, UInt64.toNat_ofNat'⟩
  | maxRetries => exact ⟨maxRetries, (hcount _).symm.trans h₂, UInt32.toNat_ofNat'⟩
  | retryBaseMs => exact ⟨retryBaseMs, (hcount _).symm.trans h₃, UInt64.toNat_ofNat'⟩
  | retryMaxMs => exact ⟨retryMaxMs, (hcount _).symm.trans h₄, UInt64.toNat_ofNat'⟩

/-- What is loaded are the settings of three layers. -/
theorem exists_layer_of_load (hfile : filed? s file = some (origin, entries))
    (h : load base s file = .ok c) :
    ∃ given : Layer, ((given.withEntries origin entries).withEntries environmentName
      s.settingVariables).toSettings = .ok c := by
  obtain ⟨given, -, h⟩ := bind_eq_ok_iff.1 h
  have checked : ∀ {filed : Layer}, (do
      let settings ← (filed.withEntries environmentName s.settingVariables).toSettings
      settings.check
      return settings) = .ok c →
      (filed.withEntries environmentName s.settingVariables).toSettings = .ok c := by
    intro filed h
    obtain ⟨settings, hsettings, h⟩ := bind_eq_ok_iff.1 h
    obtain ⟨-, -, h⟩ := bind_eq_ok_iff.1 h
    cases h
    exact hsettings
  refine ⟨given, ?_⟩
  cases file with
  | none =>
    cases hfile
    exact checked h
  | some name =>
    obtain ⟨filed, hfiled, h⟩ := bind_eq_ok_iff.1 h
    cases (overFile_of_filed? hfile).symm.trans hfiled
    exact checked h

/-- The entries of a file fit. -/
theorem fits_of_filed? (hfile : filed? s file = some (origin, entries)) :
    ∀ e ∈ entries, e.2.Fits := by
  cases file with
  | none =>
    cases hfile
    exact List.forall_mem_nil _
  | some name =>
    obtain ⟨_, _, -, htext, -⟩ := filed?_eq_some hfile
    exact Toml.fits_of_ofText? htext

/-- The topmost entry for a setting is the one that is looked up. -/
theorem get?_topmost {l : Layer} (htop : s.topmost? entries a.key = some (key, v))
    (hkey : Address.ofKey key = .whole a.key) (hv : Writes v n) :
    ∃ place e, Layer.entryOf place v = some e ∧
      ((l.withEntries origin entries).withEntries environmentName s.settingVariables).get? a.key =
        some e := by
  have hset : ∀ place, ∃ e, Layer.entryOf place v = some e := by
    intro place
    cases hv <;> exact ⟨_, rfl⟩
  rcases Option.or_eq_some_iff.1 htop with htop | ⟨hnone, htop⟩
  · obtain ⟨e, he⟩ := hset environmentName
    exact ⟨_, e, he, Layer.get?_withEntries_of_whole htop hkey he⟩
  · obtain ⟨e, he⟩ := hset origin
    refine ⟨_, e, he, ?_⟩
    rw [Layer.get?_withEntries_of_none hnone, Layer.get?_withEntries_of_whole htop hkey he]

theorem fits_of_topmost (hfile : filed? s file = some (origin, entries))
    (htop : s.topmost? entries a.key = some (key, v)) : v.Fits := by
  rcases Option.or_eq_some_iff.1 htop with htop | ⟨-, htop⟩
  · have hmem := List.mem_reverse.1 (List.mem_of_find?_eq_some htop)
    rw [Surroundings.settingVariables_eq] at hmem
    obtain ⟨_, -, he⟩ := List.mem_filterMap.1 hmem
    obtain ⟨_, -, he⟩ := Option.map_eq_some_iff.1 he
    cases he
    trivial
  · exact fits_of_filed? hfile _ (List.mem_reverse.1 (List.mem_of_find?_eq_some htop))

/-- **Loading keeps the numbers that are given, as far as they fit.** Whatever the settings below,
the file and the environment: let the topmost entry for a setting write a number, in decimal digits
or as a whole number of the file. If settings are loaded, then the number is below `2 ^ 64` and the
setting is its remainder modulo the limit of the setting. So it is the number itself if and only if
that is below the limit, which for workers and milliseconds it always is: a larger number is not
loaded. Of a number of retries from `2 ^ 32` on another number is left. -/
theorem load_keeps_amounts (hfile : filed? s file = some (origin, entries))
    (htop : s.topmost? entries a.key = some (key, v))
    (hkey : Address.ofKey key = .whole a.key) (hv : Writes v n) (hload : load base s file = .ok c) :
    n < 2 ^ 64 ∧ c.amount a = n % a.limit ∧ (c.amount a = n ↔ n < a.limit) ∧
      (a ≠ .maxRetries → c.amount a = n) := by
  obtain ⟨given, hsettings⟩ := exists_layer_of_load hfile hload
  obtain ⟨place, e, he, hget⟩ := get?_topmost htop hkey hv
  obtain ⟨m, hm, hamount⟩ := amount_of_toSettings hsettings hget
  obtain ⟨rfl, hlt⟩ := Entry.toCount_of_writes hv (fits_of_topmost hfile htop) he hm
  have hlimit : 0 < a.limit := by cases a <;> decide
  have hexact : c.amount a = m ↔ m < a.limit := by
    rw [hamount]
    exact ⟨fun h => h ▸ Nat.mod_lt _ hlimit, Nat.mod_eq_of_lt⟩
  refine ⟨hlt, hamount, hexact, fun hne => hexact.2 ?_⟩
  cases a with
  | maxRetries => exact absurd rfl hne
  | _ => exact hlt

/-- A variable sets the number of retries. -/
def withRetriesVariable (text : String) : Surroundings where
  files := []
  environment := [("DEAL_PROCESSOR_MAX_RETRIES", text)]

theorem topmost?_withRetriesVariable (text : String) :
    (withRetriesVariable text).topmost? [] Amount.maxRetries.key =
      some ("max_retries", .text text) := by
  have hkey : Surroundings.keyOf? "DEAL_PROCESSOR_MAX_RETRIES" = some "max_retries" := by
    decide +kernel
  have hname : (Address.ofKey "max_retries").name = Amount.maxRetries.key := by decide +kernel
  have hvariables : (withRetriesVariable text).settingVariables =
      [] ++ [("max_retries", .text text)] := by
    rw [Surroundings.settingVariables_eq, withRetriesVariable, List.filterMap_cons, hkey]
    rfl
  rw [Surroundings.topmost?, hvariables, lastFor?_concat, if_pos hname]
  rfl

theorem load_keeps_amounts_largest : ∃ c : Settings,
    standard.load (withRetriesVariable "4294967295") none = .ok c ∧
    c.amount .maxRetries = 4294967295 := by
  have hload : standard.load (withRetriesVariable "4294967295") none =
      .ok { standard with maxRetries := 4294967295 } := by
    decide +kernel
  have hvalue : Decimal.ofDigits "4294967295".toList = 4294967295 := by decide +kernel
  have hwrites : Writes (.text "4294967295") 4294967295 :=
    hvalue ▸ .digits (.inl rfl) (by decide +kernel) (List.all_eq_true.1 (by decide +kernel))
  have hfile : filed? (withRetriesVariable "4294967295") none = some ("", []) := rfl
  obtain ⟨-, -, hexact, -⟩ := load_keeps_amounts hfile (topmost?_withRetriesVariable _)
    (by decide +kernel) hwrites hload
  exact ⟨_, hload, hexact.2 (by decide)⟩

theorem load_alters_an_amount : ¬ ∀ {base c : Settings} {s : Surroundings} {file : Option String}
    {origin key : String} {entries : List (String × Toml)} {v : Toml} {a : Amount} {n : Nat},
    filed? s file = some (origin, entries) → s.topmost? entries a.key = some (key, v) →
    Address.ofKey key = .whole a.key → Writes v n → load base s file = .ok c → c.amount a = n := by
  intro hkeeps
  have hload : standard.load (withRetriesVariable "4294967296") none =
      .ok { standard with maxRetries := 0 } := by
    decide +kernel
  have hvalue : Decimal.ofDigits "4294967296".toList = 4294967296 := by decide +kernel
  have hwrites : Writes (.text "4294967296") 4294967296 :=
    hvalue ▸ .digits (.inl rfl) (by decide +kernel) (List.all_eq_true.1 (by decide +kernel))
  have hfile : filed? (withRetriesVariable "4294967296") none = some ("", []) := rfl
  have hkept : Settings.amount { standard with maxRetries := 0 } .maxRetries = 4294967296 :=
    hkeeps hfile (topmost?_withRetriesVariable _) (by decide +kernel) hwrites hload
  cases hkept

end Settings

end DealDesk

import StatusEffects.Settings
import StatusEffects.Text.Table.Reader

/-!
# Settings files

A settings file is a text in the table notation. What it does not set has its usual value, and what
it sets beyond the settings is passed over.

## Main definitions

* `SettingsFault` : why there are no settings.
* `Content.readSettings` : the settings of a text.
-/

namespace StatusEffects

/-- Why a text gives no settings. -/
inductive SettingsFault where
  /-- It is no settings file in the table notation. -/
  | unreadable
  /-- A number that must be positive is zero. -/
  | zero (field : String)
deriving DecidableEq, Repr

/-- What is told about a number that must be positive. -/
def SettingsFault.zeroMessage (field : String) : String := field ++ " must be greater than zero"

namespace Content

open Text.Table

/-- An unsigned number of 64 bits under a key, or a default where the key is not set. -/
def wordEntry (es : Entries) (key : String) (default : UInt64) : Option UInt64 :=
  match get? es key with
  | none => some default
  | some (.value (.whole n)) =>
    if 0 ≤ n ∧ n < UInt64.size then some (UInt64.ofNat n.toNat) else none
  | some _ => none

/-- A truth value under a key, or a default where the key is not set. -/
def truthEntry (es : Entries) (key : String) (default : Bool) : Option Bool :=
  match get? es key with
  | none => some default
  | some (.value (.truth b)) => some b
  | some _ => none

/-- The settings in the entries of a table. -/
def settings (es : Entries) : Option Settings := do
  let usual : Settings := {}
  let expiryUnit ← wordEntry es "expiry_unit_ms" usual.expiryUnit
  let maxEffects ← wordEntry es "max_effects_per_actor" usual.maxEffects
  let danceCancel ← truthEntry es "dance_cancel_buff" usual.danceCancel
  let refreshAdoptsEnchant ←
    truthEntry es "refresh_resets_enchant" usual.refreshAdoptsEnchant
  return { expiryUnit, maxEffects, danceCancel, refreshAdoptsEnchant }

/-- The settings of a text. -/
def readSettings (text : String) : Except SettingsFault Settings :=
  match (Text.Table.read text).bind settings with
  | none => .error .unreadable
  | some s =>
    if s.expiryUnit = 0 then .error (.zero "expiry_unit_ms")
    else if s.maxEffects = 0 then .error (.zero "max_effects_per_actor")
    else .ok s

end Content

end StatusEffects

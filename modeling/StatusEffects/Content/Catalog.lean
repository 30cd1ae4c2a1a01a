import StatusEffects.Content.Decoder
import StatusEffects.Refusal
import StatusEffects.Text.Record.Reader

/-!
# Catalogs

A catalog is a text in the record notation that lists effect templates.

## Main definitions

* `Content.condition`, `Content.template` : decoders of conditions and templates.
* `CatalogFault` : why there is no codex.
* `Content.readCatalog` : the codex of a text.
-/

namespace StatusEffects

namespace Content

open Text.Record

/-- A bonus: its kind and its number. -/
def bonus : Decoder Bonus := fun room v =>
  match v with
  | .tuple (some head) [inner] => do
    if room < 2 then none
    else
      let n ← Decoder.int32 (room - 2) inner
      match plain head with
      | "Flat" => some (.flat n)
      | "Increased" => some (.increased n)
      | "More" => some (.more n)
      | "Less" => some (.less n)
      | _ => none
  | _ => none

/-- A bonus to a stat. -/
def statBonus : Decoder StatBonus :=
  .fields "StatBonus" ["stat", "bonus"] fun fs room => do
    let stat ← Decoder.required fs room "stat" .named
    let bonus ← Decoder.required fs room "bonus" bonus
    return ⟨stat, bonus⟩

/-- The fields of the test for aggression. -/
def aggro (fs : List (String × Value)) (room : Nat) : Option Condition := do
  return .targetAggro (← Decoder.required fs room "aggressive" .truth)

/-- The fields of the test for a character nearby. -/
def npcRange (fs : List (String × Value)) (room : Nat) : Option Condition := do
  let npcId ← Decoder.required fs room "npc_id" .word32
  let radius ← Decoder.required fs room "radius" .word32
  return .rangeFromNpc npcId radius

/-- The fields of the test for the distance of the target. -/
def targetRange (fs : List (String × Value)) (room : Nat) : Option Condition := do
  return .targetInRange (← Decoder.required fs room "radius" .word32)

/-- A condition. One unit of room goes to the test and one to what is in its brackets. -/
def condition : Decoder Condition
  | room + 2, .tuple (some head) [inner] =>
    match plain head with
    | "CasterHasTags" => (Decoder.flags actorTagNames room inner).map .casterHasTags
    | "TargetHasTags" => (Decoder.flags actorTagNames room inner).map .targetHasTags
    | "TargetAlive" => (Decoder.truth room inner).map .targetAlive
    | "CasterAlive" => (Decoder.truth room inner).map .casterAlive
    | "TargetLevelAtMost" => (Decoder.word32 room inner).map .targetLevelAtMost
    | "EnchantLevelAtLeast" => (Decoder.word32 room inner).map .enchantLevelAtLeast
    | "ValueAtLeast" => (Decoder.float room inner).map .valueAtLeast
    | "Not" => (condition room inner).map .not
    | "And" => (conditions room inner).map .and
    | "Or" => (conditions room inner).map .or
    | _ => none
  | room + 1, .record (some head) fs =>
    match plain head with
    | "TargetAggro" => Decoder.body ["aggressive"] aggro room fs
    | "RangeFromNpc" => Decoder.body ["npc_id", "radius"] npcRange room fs
    | "TargetInRange" => Decoder.body ["radius"] targetRange room fs
    | _ => none
  | _, _ => none
where
  /-- A list of conditions. -/
  conditions : Decoder (List Condition)
    | 1, .list [] => some []
    | room + 2, .list items => items.mapM (condition room)
    | _, _ => none

/-- An enchant variant. -/
def variant : Decoder Variant :=
  .fields "EnchantVariant" ["route", "min_level", "duration_ticks", "power", "priority"]
    fun fs room => do
      let route ← Decoder.required fs room "route" .word32
      let minLevel ← Decoder.required fs room "min_level" .word32
      let duration ← Decoder.optional fs room "duration_ticks" (.option .word32) none
      let power ← Decoder.optional fs room "power" (.option .int32) none
      let priority ← Decoder.optional fs room "priority" (.option .word32) none
      return { route, minLevel, duration, power, priority }

/-- A template. -/
def template : Decoder Template :=
  .fields "EffectTemplate" Template.fieldNames fun fs room => do
    let id ← Decoder.required fs room "id" templateId
    let name ← Decoder.required fs room "name" .text
    let skill ← Decoder.required fs room "skill_id" skillId
    let kind ← Decoder.required fs room "kind" .named
    let abnormalType ← Decoder.required fs room "abnormal_type" .named
    let duration ← Decoder.optional fs room "base_duration_ticks" .word32 0
    let tickInterval ← Decoder.optional fs room "tick_interval_ms" .word64 0
    let stackable ← Decoder.optional fs room "stackable" .truth false
    let stacksWithSelf ← Decoder.optional fs room "stacks_with_self" .truth false
    let tieBreak ← Decoder.optional fs room "tie_break" .named TieBreak.higherPriority
    let priority ← Decoder.optional fs room "priority" .word32 0
    let power ← Decoder.optional fs room "power" .int32 0
    let visual ← Decoder.optional fs room "visual" (.flags visualNames) ∅
    let icon ← Decoder.optional fs room "icon" .word32 0
    let policy ← Decoder.optional fs room "flags" (.flags policyNames) ∅
    let condition ← Decoder.optional fs room "condition" (.option condition) none
    let bonuses ← Decoder.optional fs room "bonuses" (.list statBonus) []
    let form ← Decoder.optional fs room "transform_id" .word32 0
    let variants ← Decoder.optional fs room "enchant_variants" (.list variant) []
    return { id, name, skill, kind, abnormalType, duration, tickInterval, stackable,
             stacksWithSelf, tieBreak, priority, power, visual, icon, policy, condition, bonuses,
             form, variants }

/-- The templates of a catalog. -/
def catalog : Decoder (List Template) :=
  .fields "TemplateCatalog" ["templates"] fun fs room =>
    Decoder.required fs room "templates" (.list template)

end Content

/-- Why a text gives no codex. -/
inductive CatalogFault where
  /-- It is no catalog in the record notation. -/
  | unreadable
  /-- Its templates break a rule. -/
  | refused (cause : CodexFault)
deriving DecidableEq, Repr

/-- What is told about templates that break a rule. -/
def CodexFault.catalogMessage (f : CodexFault) : String :=
  "Invalid effect catalog: " ++ f.diagnosis.message

/-- The codex of a catalog. -/
def Content.readCatalog (text : String) : Except CatalogFault Codex :=
  match (Text.Record.read text).bind (Content.catalog Content.textRoom) with
  | none => .error .unreadable
  | some templates => (Codex.ofList templates).mapError .refused

end StatusEffects

import Rim.Json.Parser
import Rim.Policy
import Rim.Toml

/-!
# Policies in files

A policy is written in TOML or JSON, each part at most once and under its own name; parts that are
absent are those of the standard policy. JSON also has the array of the parts in order.

* `Policy.ofToml`, `Policy.ofJson`: the policy that a text writes.
* `Policy.ofFile`: the policy in a file, whose name says the format.
-/

namespace Rim.Policy

/-- The setting of a part of the policy that settings in TOML name. -/
def settingOfToml? : String × Toml.Value → Option Setting
  | ("allowed_algorithms", .texts names) => some (.algorithms names)
  | ("require_meta", .flag b) => some (.requireMeta b)
  | ("check_validity", .flag b) => some (.checkValidity b)
  | _ => none

def text? : Json.Value → Option String
  | .string s => some s
  | _ => none

/-- The setting of a part of the policy that a member in JSON names. -/
def settingOfJson? : String × Json.Value → Option Setting
  | ("allowed_algorithms", .array items) => .algorithms <$> items.mapM text?
  | ("require_meta", .bool b) => some (.requireMeta b)
  | ("check_validity", .bool b) => some (.checkValidity b)
  | _ => none

/-- The names of the parts, in the order of the array form. -/
def partNames : List String := ["allowed_algorithms", "require_meta", "check_validity"]

/-- The settings of a JSON value in either form. -/
def settingsOfJson? : Json.Value → Option (List Setting)
  | .object members =>
    if (members.map (·.1)).Nodup then members.mapM settingOfJson? else none
  | .array items =>
    if items.length ≤ partNames.length then (partNames.zip items).mapM settingOfJson? else none
  | _ => none

def ofSettings (settings : List Setting) : Policy := settings.foldl set standard

/-- The policy that a text in TOML writes. -/
def ofToml (text : String) : Result Policy :=
  match (Toml.parse? text).bind (·.mapM settingOfToml?) with
  | some settings => .ok (ofSettings settings)
  | none => .error (.config "invalid TOML: not the settings of a policy")

/-- The policy that a text in JSON writes. -/
def ofJson (text : String) : Result Policy :=
  match (Json.parse? text).bind settingsOfJson? with
  | some settings => .ok (ofSettings settings)
  | none => .error (.config "invalid JSON: not the settings of a policy")

/-- What follows the last dot of a file's name, unless that is where the name starts. -/
def extension? (name : String) : Option String :=
  let reversed := name.toList.reverse
  match reversed.dropWhile (· != '.') with
  | '.' :: _ :: _ => some (String.ofList (reversed.takeWhile (· != '.')).reverse)
  | _ => none

/-- The policy in a file of the given name and content, if it can be read. -/
def ofFile (name : String) (content : Option String) : Result Policy :=
  match content with
  | none => .error (.config ("failed to read " ++ name ++ ": no such file"))
  | some text =>
    match extension? name with
    | some "toml" => ofToml text
    | some "json" => ofJson text
    | _ => .error (.config ("unsupported policy file format: " ++ name))

end Rim.Policy

import FactRules.Settings

/-!
# Packaged documents

Three documents come with the library, as files of one directory: the default rules, the default
settings, and an empty one that marks the directory as a package. A host names the one to read its
rules from by the setting `RULES` of the narrative. Reading rules from the settings or from the
empty document gives none.

`Packaged.document` finds a document by its name, or says why the name leads to none.
-/

namespace FactRules.Packaged

/-- A response record with texts for now. -/
def response (id : String) (now : List String) : Value :=
  .table [("id", .str id), ("now", .list (now.map .str))]

/-- A rule record that names the response of its own id. -/
def rule (id concept : String) (facts : List String) : Value :=
  .table
    [("id", .str id), ("response", .str id),
     ("criteria", .table [("concept", .str concept), ("facts", .list (facts.map .str))])]

/-- The responses of the default rules. -/
def responses : List Value :=
  [
    response "IdleGeneric"
      ["RandomText thought.idle.hum,thought.idle.look_around,thought.idle.bored"],
    response "IdleHungry" ["RandomText thought.hungry.tummy,thought.hungry.snack"],
    response "IdleStarving" ["RandomText thought.starving"],
    response "IdleLunch" ["RandomText thought.lunch"],
    response "IdleRaining" ["RandomText thought.raining"],
    response "IdlePoop" ["RandomText thought.poop.smell,thought.poop.gross"],
    response "IdleLonely" ["RandomText thought.lonely", "AddEntityFact ThoughtLonely 120"],
    response "IdleHappy" ["RandomText thought.happy.sing,thought.happy.dance"],
    response "JustAte" ["RandomText thought.ate.yum,thought.ate.full"],
    response "JustAteStillHungry" ["RandomText thought.ate.more"],
    response "StartingEating" ["RandomText thought.eating.start"]
  ]

/-- The default rules: the more facts a rule asks for, the sooner it is chosen. -/
def rules : List Value :=
  [
    rule "IdleGeneric" "think_idle" [],
    rule "IdleHungry" "think_idle" ["Hunger < 0.3"],
    rule "IdleStarving" "think_idle" ["Hunger < 0.3", "IsStarving"],
    rule "IdleLunch" "think_idle" ["TimeOfDay > 11.5", "TimeOfDay < 13.5", "Hunger < 0.6"],
    rule "IdleRaining" "think_idle" ["IsRaining"],
    rule "IdlePoop" "think_idle" ["PoopCount > 2"],
    rule "IdleLonely" "think_idle" ["PetCount < 1", "ThoughtLonely !"],
    rule "IdleHappy" "think_idle" ["Mood > 0.8 || MoodHistoryMedian > 0.8", "Hunger > 0.5"],
    rule "JustAte" "think_just_ate" [],
    rule "JustAteStillHungry" "think_just_ate" ["Hunger < 0.5"],
    rule "StartingEating" "think_starting_eating" []
  ]

/-- Why a name leads to no packaged document. -/
inductive NameError where
  | notFileName (name : String)
  | nullCharacter
  | tooLong (name : String)
  | directory (name : String)
  | absent (name : String)

/-- The wording of a name error, where it has one. -/
def NameError.message? : NameError → Option String
  | notFileName name => some ((Value.str name).display ++ " must be only a file name")
  | nullCharacter => some "embedded null byte"
  | tooLong _ | directory _ | absent _ => none

/-- The most bytes that the name of a file may have. -/
def maxNameSize : Nat := 255

/-- The document of a name. The name has to be one that a file in a directory may have, before it is
looked up; the empty name and the names of dots stand for directories. -/
def document (name : String) : Except NameError Value :=
  if name.contains '/' then .error (.notFileName name)
  else if name.contains '\x00' then .error .nullCharacter
  else if maxNameSize < name.utf8ByteSize then .error (.tooLong name)
  else
    match name with
    | "rules.toml" => .ok (.table [("response", .list responses), ("rule", .list rules)])
    | "config.toml" => .ok (.table Settings.defaults.entries)
    | "__init__.py" => .ok (.table [])
    | "" | "." | ".." => .error (.directory name)
    | _ => .error (.absent name)

end FactRules.Packaged

import ScriptTypings.CommandLine.Word
import ScriptTypings.Settings

/-!
# Reading the command line

`Given.ofWords` collects what is chosen and what is left over. Short choices without a value can
share one argument, and the last one of them may take a value. `Arguments.ofGiven` demands the
required choices and refuses what is left over.
-/

namespace ScriptTypings.CommandLine

/-- What words give: the flags, the values of other choices, and words that belong to none. -/
structure Given where
  flags : List Choice := []
  values : List (Choice × String) := []
  leftover : List String := []
  deriving DecidableEq, Repr

namespace Given

/-- What stands before and what stands after, together. -/
def append (a b : Given) : Given :=
  { flags := a.flags ++ b.flags, values := a.values ++ b.values,
    leftover := a.leftover ++ b.leftover }

/-- The value of a choice; the last one counts. -/
def value? (given : Given) (choice : Choice) : Option String :=
  ((given.values.reverse).find? fun entry => entry.1 = choice).map Prod.snd

def has (given : Given) (choice : Choice) : Bool :=
  given.flags.contains choice || given.values.any fun entry => entry.1 = choice

end Given

/-- The choices of one argument: what they give, and the choice whose value is the next word. -/
structure Group where
  given : Given
  pending : Option Choice := none
  deriving DecidableEq, Repr

namespace Group

def flag (choice : Choice) : Group :=
  { given := { flags := [choice] } }

def awaiting (choice : Choice) : Group :=
  { given := {}, pending := some choice }

/-- A choice with its value. -/
def valued (choice : Choice) (text : List Char) : Group :=
  { given := { values := [(choice, .ofList text)] } }

/-- The group with a flag before it. -/
def behind (choice : Choice) (group : Group) : Group :=
  { group with given := (flag choice).given.append group.given }

/-- A choice and the letters behind it in the same argument: its value, or more short choices. -/
def ofLetters (choice : Choice) : List Char → Except UsageError Group
  | [] => .ok (if choice.takesValue then awaiting choice else flag choice)
  | letter :: rest =>
    if choice.takesValue then .ok (valued choice (letter :: rest))
    else
      match Choice.ofSpelling? (.ofList ['-', letter]) with
      | none => .error (.uselessText choice (.ofList (letter :: rest)))
      | some next =>
        match ofLetters next rest with
        | .ok group => .ok (group.behind choice)
        | .error e => .error e

/-- A choice and the text in the same argument. -/
def ofChoice (choice : Choice) (isShort : Bool) : Option (List Char) → Except UsageError Group
  | none => ofLetters choice []
  | some text =>
    if choice.takesValue then .ok (valued choice text)
    else if isShort && !text.isEmpty then ofLetters choice text
    else .error (.uselessText choice (.ofList text))

end Group

namespace Given

def ofLeftover (text : String) : Given :=
  { leftover := [text] }

/-- What words give, in order. Nothing is read behind a call for help. -/
def ofWords : List Word → Except UsageError Given
  | [] => .ok {}
  | .plain text :: words => (ofLeftover text).append <$> ofWords words
  | .unknown text :: words => (ofLeftover text).append <$> ofWords words
  | .marker :: words => (ofLeftover "--").append <$> ofWords words
  | .choice choice isShort text? :: words =>
    match Group.ofChoice choice isShort text? with
    | .error e => .error e
    | .ok ⟨given, none⟩ => if given.has .help then .ok given else given.append <$> ofWords words
    | .ok ⟨given, some waiting⟩ =>
      -- only a plain word can be a value: one that looks like a choice cannot
      match words with
      | .plain text :: words =>
        let given := given.append { values := [(waiting, text)] }
        if given.has .help then .ok given else given.append <$> ofWords words
      | _ => .error (.missingValue waiting)

end Given

/-- What a run is asked to do. A path is none if nothing was left of the value given for it; other
choices for which this is so are listed. -/
structure Arguments where
  reflection : Option Path
  output : Option Path
  dump : Option Path := none
  rebuild : Bool := false
  verbose : Bool := false
  settings : Settings := {}
  lacking : List Choice := []
  deriving DecidableEq, Repr

namespace Arguments

/-- A path of the settings, unless nothing was left of the value given for it. -/
def unlessLacking (arguments : Arguments) (choice : Choice) (path : Path) : Option Path :=
  if arguments.lacking.contains choice then none else some path

def documents? (arguments : Arguments) : Option Path :=
  arguments.unlessLacking .documents arguments.settings.documents

def cache? (arguments : Arguments) : Option Path :=
  arguments.unlessLacking .cache arguments.settings.cache

end Arguments

/-- What the command line asks for. -/
inductive Request
  | help
  | run (arguments : Arguments)
  deriving DecidableEq, Repr

namespace Given

/-- The path that a choice gives. The marker of two dashes leaves nothing of a value. -/
def path? (given : Given) (choice : Choice) : Option Path :=
  ((given.value? choice).filter (· ≠ "--")).map Path.ofText

/-- Whether nothing is left of the value of a choice. -/
def lacks (given : Given) (choice : Choice) : Bool :=
  given.value? choice = some "--"

def settings (given : Given) : Settings :=
  let usual : Settings := {}
  { documents := (given.path? .documents).getD usual.documents
    cache := (given.path? .cache).getD usual.cache
    supplies := given.path? .supplies
    strict := given.has .strict }

/-- The request that given choices make. -/
def request (given : Given) : Except UsageError Request :=
  if given.has .help then .ok .help
  else
    match Choice.all.filter fun c => c.isRequired && !given.has c with
    | [] =>
      if given.leftover.isEmpty then
        .ok (.run
          { reflection := given.path? .reflection, output := given.path? .output,
            dump := given.path? .dump, rebuild := given.has .rebuild,
            verbose := given.has .verbose, settings := given.settings,
            lacking := Choice.all.filter given.lacks })
      else .error (.unrecognized given.leftover)
    | missing => .error (.missingChoices missing)

end Given

/-- The request of a command line. -/
def Request.ofArguments (arguments : List String) : Except UsageError Request := do
  (← Given.ofWords (← Word.ofArguments arguments)).request

end ScriptTypings.CommandLine

import LongTermMemory.CommandLine.Argument

/-!
The commands, and the call that asks for one: what stands before the command says which
configuration, store and owner it is for.
-/

namespace LongTermMemory.CommandLine

inductive Command where
  | create (content tags : String) (type category : Option String) (importance : Int)
  | get (id : Int)
  | list (limit : Int) (tags type : Option String) (archived : Bool)
  | search (query : String) (limit : Int) (category : Option String)
  | delete (id : Int)
  | stats
  | learn (userInput response : String) (tool : Option String) (toolOutput : String)
  | context (query : String) (maxLength : Option Int)
  | consolidate
  | lifecycle
  /-- Again after so many seconds, and only once for none. -/
  | maintain (intervalSeconds : Int)
deriving DecidableEq

def int32 : Kind := .integer .int32

def int64 : Kind := .integer .int64

def nat64 : Kind := .integer .nat64

/-- A command by its name: what it takes, and what it is made of. -/
structure CommandForm where
  name : String
  form : Form
  make? : Given → Option Command

def helpChoice : Choice := { name := "help", short := some 'h', kind := .stop .help }

def option (name : String) (short : Char) (kind : Kind := .text) : Choice :=
  { name, short := some short, kind }

def form (words : List Kind) (options : List Choice) : Form :=
  { words, options := options ++ [helpChoice] }

def commands : List CommandForm :=
  [{ name := "create"
     form := form [.text]
       [option "tags" 'T', option "type" 't', option "category" 'c', option "importance" 'i' int32]
     make? := fun g => do
       some (.create (← g.wordText? 0) (← g.text? "tags") (g.text? "type") (g.text? "category")
         ((g.integer? "importance").getD 5)) },
   { name := "get"
     form := form [int64] []
     make? := fun g => (g.wordInteger? 0).map .get },
   { name := "list"
     form := form []
       [option "limit" 'l' int64, option "tags" 'T', option "type" 't',
        { name := "archived", kind := .flag }]
     make? := fun g =>
       some (.list ((g.integer? "limit").getD 20) (g.text? "tags") (g.text? "type")
         (g.flag "archived")) },
   { name := "search"
     form := form [.text] [option "limit" 'l' int64, option "category" 'c']
     make? := fun g => do
       some (.search (← g.wordText? 0) ((g.integer? "limit").getD 10) (g.text? "category")) },
   { name := "delete"
     form := form [int64] []
     make? := fun g => (g.wordInteger? 0).map .delete },
   { name := "stats"
     form := form [] []
     make? := fun _ => some .stats },
   { name := "learn"
     form := form [.text]
       [option "response" 'r', { name := "tool" }, { name := "tool-output" }]
     make? := fun g => do
       some (.learn (← g.wordText? 0) ((g.text? "response").getD "") (g.text? "tool")
         ((g.text? "tool-output").getD "")) },
   { name := "context"
     form := form [.text] [option "max-length" 'm' nat64]
     make? := fun g => do
       some (.context (← g.wordText? 0) (g.integer? "max-length")) },
   { name := "consolidate"
     form := form [] []
     make? := fun _ => some .consolidate },
   { name := "lifecycle"
     form := form [] []
     make? := fun _ => some .lifecycle },
   { name := "maintain"
     form := form [] [{ name := "interval-seconds", kind := nat64 }]
     make? := fun g => some (.maintain ((g.integer? "interval-seconds").getD 0)) }]

def command? (name : String) : Option CommandForm := commands.find? (·.name == name)

/-- The command that tells of the others. -/
def helpCommand : String := "help"

def isCommand (name : String) : Bool := name == helpCommand || (command? name).isSome

/-- Help is told of all commands, or of one that there is. -/
def readHelp : List String → Stop
  | [] => .help
  | [name] => if isCommand name then .help else .refused
  | _ => .refused

def Command.read (name : String) (args : List String) : Except Stop Command :=
  match command? name with
  | none => .error (if name == helpCommand then readHelp args else .refused)
  | some c => do
    let g ← c.form.read args
    match c.make? g with
    | some command => .ok command
    | none => .error .refused

structure Call where
  /-- The configuration file. -/
  config : Option String
  /-- The path of the store, instead of the configured one. -/
  storePath : Option String
  /-- The name of the storage mode, instead of the configured one. -/
  storageMode : Option String
  owner : String
  command : Command
deriving DecidableEq

/-- The owner where none is named. -/
def defaultOwner : String := "default"

/-- The options before the command. The one for logs changes nothing else. -/
def callForm : Form :=
  { options :=
      [{ name := "config" }, { name := "db-path" }, { name := "storage-mode" },
       option "owner" 'o', { name := "log-json", kind := .flag }, helpChoice,
       { name := "version", short := some 'V', kind := .stop .version }] }

/-- The environment variables that stand in for options. -/
def variableNames : List (String × String) :=
  [("config", "LTM_CONFIG"), ("db-path", "LTM_DB_PATH"), ("storage-mode", "LTM_STORAGE_MODE"),
   ("owner", "LTM_OWNER")]

/-- An option as it is given, else by its variable. -/
def optionOrVariable (environment : List (String × String)) (g : Given) (name : String) :
    Option String :=
  g.text? name <|> (List.lookup name variableNames >>= fun v => List.lookup v environment)

def Call.read (environment : List (String × String)) (args : List String) : Except Stop Call := do
  let (g, rest) ← callForm.readTo isCommand {} args
  match rest with
  | [] => .error .refused
  | name :: rest =>
    let command ← Command.read name rest
    .ok
      { config := optionOrVariable environment g "config"
        storePath := optionOrVariable environment g "db-path"
        storageMode := optionOrVariable environment g "storage-mode"
        owner := (optionOrVariable environment g "owner").getD defaultOwner
        command }

end LongTermMemory.CommandLine

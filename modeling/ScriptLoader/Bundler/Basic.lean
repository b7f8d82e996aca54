/-!
The bundler: a tool outside of this library that strips the types of one file, finds the file that an
imported name stands for and builds projects. All that is known of it is what it is asked and what it answers.
-/

set_option autoImplicit false
namespace ScriptLoader

inductive OutputTarget where
  | es5 | es2015 | es2016 | es2017 | es2018 | es2019 | es2020 | es2021 | es2022 | es2023 | es2024 | esNext
  deriving DecidableEq, Repr

def OutputTarget.name : OutputTarget → String
  | .es5 => "es5"
  | .es2015 => "es2015"
  | .es2016 => "es2016"
  | .es2017 => "es2017"
  | .es2018 => "es2018"
  | .es2019 => "es2019"
  | .es2020 => "es2020"
  | .es2021 => "es2021"
  | .es2022 => "es2022"
  | .es2023 => "es2023"
  | .es2024 => "es2024"
  | .esNext => "esnext"

inductive OutputFormat where
  | unchanged
  | commonJS
  | module
  deriving DecidableEq, Repr

def OutputFormat.name : OutputFormat → String
  | .unchanged => "default"
  | .commonJS => "cjs"
  | .module => "esm"

inductive SourceSyntax where
  | plain
  | withMarkup
  deriving DecidableEq, Repr

structure TransformRequest where
  text : String
  file : String
  format : OutputFormat
  target : OutputTarget
  sourceSyntax : SourceSyntax
  options : String
  deriving DecidableEq, Repr

/-- One import to resolve: the text of a module in a directory that has this import and no other. -/
structure ImportRequest where
  specifier : String
  contents : String
  dir : String
  importer : String
  extensions : List String
  options : String
  deriving DecidableEq, Repr

structure BuildRequest where
  entries : List String
  outDir : String
  outBase : String
  config : String
  format : OutputFormat
  target : OutputTarget
  deriving DecidableEq, Repr

/-- A place in a source; lines count from 1 and columns from 0. -/
structure MessagePlace where
  file : String
  line : Int
  column : Int
  length : Int
  lineText : String
  deriving DecidableEq, Repr

structure BundlerMessage where
  text : String
  place : Option MessagePlace := none
  deriving DecidableEq, Repr

structure TransformAnswer where
  code : String
  errors : List BundlerMessage := []
  warnings : List BundlerMessage := []
  deriving DecidableEq, Repr

structure ImportAnswer where
  path : String := ""
  /-- The space of names that the path belongs to; files are in `file`. -/
  space : String := "file"
  isExternal : Bool := false
  errors : List BundlerMessage := []
  deriving DecidableEq, Repr

def ImportAnswer.file? (answer : ImportAnswer) : Option String :=
  if answer.errors.isEmpty ∧ !answer.isExternal ∧ answer.space = "file" ∧ answer.path ≠ "" then some answer.path
  else none

structure Bundler where
  transform : TransformRequest → TransformAnswer
  resolve : ImportRequest → ImportAnswer
  /-- Builds a project; what it answers are its errors. -/
  build : BuildRequest → List BundlerMessage

end ScriptLoader

import ScriptLoader.Settings.Basic

/-! Settings as the text of a settings file. -/

set_option autoImplicit false
namespace ScriptLoader.Settings

def pair (indent name value : String) : String := indent ++ name ++ " = " ++ value ++ "\n"

def table (name : String) (pairs : List (String × String)) : String :=
  "\n[" ++ name ++ "]\n" ++ String.join (pairs.map fun (name, value) => pair "  " name value)

def report (settings : Settings) : String :=
  let check := ("check", if settings.loader.checkEnabled then "true" else "false")
  let defaults :=
    if settings.loader.defaults = "" then [] else [("defaults", Toml.renderText settings.loader.defaults)]
  pair "" "source" (Toml.renderText (if settings.path = "" then "(built-in)" else settings.path)) ++
    table "loader" (check :: defaults) ++
    table "serve" [("addr", Toml.renderText settings.addr), ("root", Toml.renderText settings.root)]

end ScriptLoader.Settings

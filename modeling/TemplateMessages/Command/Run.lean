import TemplateMessages.Command.Transform

set_option autoImplicit false

/-!
# Running a command
-/

namespace TemplateMessages.Command

open TemplateMessages.Files
open TemplateMessages.Project

def helpScreen : String := lines [
  "Build-time translation baking for template-based UI component files",
  "",
  "Usage: bake-i18n [COMMAND]",
  "",
  "Commands:",
  "  transform  Replace translation calls in component templates with their translations",
  "  init       Initialize a new .bakerc.json configuration file",
  "  help       Print this message or the help of the given subcommand(s)",
  "",
  "Options:",
  "  -h, --help     Print help",
  "  -V, --version  Print version"]

def versionLine : String := "bake-i18n 0.1.0"

def init (tree : Tree) (working : Path) : Outcome :=
  let path := working.joinName configName
  if tree.contains path then
    ⟨.failure, "", lines ["Error: " ++ configName ++ " already exists"], tree⟩
  else
    match tree.write path Config.defaultText with
    | .error error =>
      ⟨.error, "", lines ["Error: Failed to write " ++ configName ++ ": " ++ error.message], tree⟩
    | .ok tree => ⟨.success, lines [Report.successMark ++ " Created " ++ configName], "", tree⟩

/-- Do what is asked for in a working directory. -/
def Request.run (request : Request) (tree : Tree) (working : Path) : Outcome :=
  match request with
  | .overview => ⟨.success, helpScreen, "", tree⟩
  | .transform arguments => Command.transform tree working arguments
  | .init => Command.init tree working

end TemplateMessages.Command

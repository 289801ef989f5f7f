import Handoff.CommandLine.Options

/-!
What the program says about itself: its version, its usage and its help.
-/

namespace Handoff.CommandLine

/-- The name of the program. -/
def programName : Text := "figma-codegen"

/-- The line that tells the version. -/
def versionLine : Text := programName ++ " 0.1.0"

/-- How the program is called. -/
def usageLines : List Text :=
  ["usage: figma-codegen [-h] [--tokens-only | --components-only | --assets-only]",
   "                     [--verbose] [--config CONFIG] [--file-key FILE_KEY]",
   "                     [--output OUTPUT] [--twig] [--version]"]

/-- What each option does. -/
def optionLines : List Text :=
  ["options:",
   "  -h, --help            show this help message and exit",
   "  --tokens-only         Only generate design tokens",
   "  --components-only     Only generate components (exports their assets)",
   "  --assets-only         Only export image assets",
   "  --verbose, -v         Debug logging",
   "  --config CONFIG, -c CONFIG",
   "                        Config path",
   "  --file-key FILE_KEY   Figma file key (overrides FIGMA_FILE_KEY)",
   "  --output OUTPUT       Output root directory",
   "  --twig                Also write Drupal Twig templates",
   "  --version             show program's version number and exit"]

/-- Some ways to call the program. -/
def exampleLines : List Text :=
  ["figma-codegen CLI — Figma → design tokens / assets / React components",
   "",
   "  figma-codegen                      # tokens + assets + components",
   "  figma-codegen --tokens-only        # 只產生 _tokens.scss",
   "  figma-codegen --components-only    # 組件（仍會匯出組件用到的資產）",
   "  figma-codegen --assets-only        # 只匯出 SVG / PNG",
   "  figma-codegen --twig               # 額外輸出 Drupal Twig 模板"]

/-- The lines of the help. -/
def helpLines : List Text :=
  usageLines ++
    (["", "Figma → SCSS tokens, assets and React components with Storybook stories", ""] : Lines) ++
    optionLines ++ ([""] : Lines) ++ exampleLines

/-- The lines that report a usage error. -/
def misuseLines (error : UsageError) : List Text :=
  usageLines ++ [programName ++ ": error: " ++ error.message]

end Handoff.CommandLine

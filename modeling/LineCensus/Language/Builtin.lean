import LineCensus.Language.Basic

namespace LineCensus

/-!
# The languages known without a configuration

* `builtinLanguages` — their comment grammars, in the order in which they claim extensions.
-/

/-- `/*` and `*/`. -/
def slashStar : Delimiters := { opening := "/*", closing := "*/" }

/-- A language with `//` comments and blocks between `/*` and `*/`. -/
def slashLanguage (name : String) (aliases extensions : List String)
    (name_ne : name ≠ "" := by decide) : Language where
  name := name
  aliases := aliases
  extensions := extensions
  name_ne := name_ne
  lineComments := ["//"]
  blockComments := [slashStar]

/-- A language with comments from `#` to the end of the line. -/
def hashLanguage (name : String) (aliases extensions : List String)
    (name_ne : name ≠ "" := by decide) : Language where
  name := name
  aliases := aliases
  extensions := extensions
  name_ne := name_ne
  lineComments := ["#"]

/-- The comment grammars known from the start. -/
def builtinLanguages : List Language :=
  [{ slashLanguage "Rust" ["rust"] ["rs"] with nested := true },
   { slashLanguage "C" ["c"] ["c", "h"] with
      directiveMark := some "#", directive_ne := by decide },
   { slashLanguage "C++" ["cpp"] ["cpp", "cc", "cxx", "hpp", "hh", "hxx"] with
      directiveMark := some "#", directive_ne := by decide },
   { hashLanguage "Python" ["python"] ["py", "pyw"] with
      blockComments :=
        [{ opening := "'''", closing := "'''" },
         { opening := "\"\"\"", closing := "\"\"\"" }] },
   slashLanguage "JavaScript" ["javascript", "js"] ["js", "jsx", "mjs"],
   slashLanguage "TypeScript" ["typescript", "ts"] ["ts", "tsx"],
   slashLanguage "Java" ["java"] ["java"],
   slashLanguage "Go" ["go"] ["go"],
   { hashLanguage "Ruby" ["ruby"] ["rb"] with
      blockComments := [{ opening := "=begin", closing := "=end" }] },
   hashLanguage "Shell" ["shell", "sh"] ["sh", "bash", "zsh"],
   { slashLanguage "SQL" ["sql"] ["sql"] with
      lineComments := ["--"], lineComments_ne := by decide },
   { name := "HTML", aliases := ["html"], extensions := ["html", "htm"],
     blockComments := [{ opening := "<!--", closing := "-->" }] },
   slashLanguage "CSS" ["css"] ["css", "scss", "sass"],
   hashLanguage "YAML" ["yaml"] ["yaml", "yml"],
   hashLanguage "TOML" ["toml"] ["toml"]]

end LineCensus

import CommentBlocks.Language.Profile

/-!
# Built-in languages

The languages known without further configuration, in the order in which they are listed and in
which they claim file extensions.
-/

namespace CommentBlocks

namespace Builtin

/-- A string in double quotes with backslash escapes. -/
def doubleQuoted : Block := .escaped "\"" "\"" "\\"

/-- A string in single quotes with backslash escapes. -/
def singleQuoted : Block := .escaped "'" "'" "\\"

/-- A comment between slashes and stars, with stars down its margin. -/
def slashStar : Block := .commentWithMargin "/*" "*/" "*"

/-- The blocks shared by the languages that write comments as C does. -/
def cStyle : List Block := [doubleQuoted, .line "///", .line "//", slashStar]

/-- The blocks of JavaScript and TypeScript. A regular expression is passed over as a string; it
comes after the comments, which also start with a slash. -/
def scriptStyle : List Block :=
  [doubleQuoted, singleQuoted, .escaped "`" "`" "\\", .line "//", slashStar, .escaped "/" "/" "\\"]

def profiles : List Profile :=
  [⟨"c#", "C#", [".cs"], cStyle⟩,
    ⟨"c++", "C/C++", [".h", ".c", ".cpp", ".cxx", ".hpp"], cStyle⟩,
    ⟨"d", "D", [".d"], cStyle⟩,
    ⟨"erlang", "Erlang", [".erl", ".hrl"], [doubleQuoted, .line "%"]⟩,
    ⟨"go", "Go", [".go"], [doubleQuoted, .verbatim "`" "`", .line "//", slashStar]⟩,
    ⟨"groovy", "Groovy", [".groovy"],
      [doubleQuoted, .escaped "'''" "'''" "\\", singleQuoted, .line "//", slashStar]⟩,
    ⟨"java", "Java", [".java"], cStyle⟩,
    ⟨"javascript", "JavaScript", [".js"], scriptStyle⟩,
    ⟨"kotlin", "Kotlin", [".kt", ".kts"],
      [.verbatim "\"\"\"" "\"\"\"", doubleQuoted, .line "//", slashStar]⟩,
    ⟨"lua", "Lua", [".lua"],
      [doubleQuoted, singleQuoted, .commentWithMargin "--[[" "]]" "-", .line "--"]⟩,
    ⟨"nim", "Nim", [".nim"],
      [.raw ["r\"", "R\""] "\"", .fence "\"\"\"", doubleQuoted,
        .commentWithMargin "#[" "]#" "#", .line "#"]⟩,
    ⟨"pascal", "Pascal", [".pas", ".pp"],
      [.doubled "'", .doubled "\"", .comment "\x7b" "\x7d", .commentWithMargin "(*" "*)" "*"]⟩,
    ⟨"perl", "Perl", [".perl", ".prl", ".pl"],
      [doubleQuoted, singleQuoted, .line "#", .anchored "=pod" "=cut"]⟩,
    ⟨"php", "PHP", [".php"],
      [.heredoc, doubleQuoted, singleQuoted, .line "//", .line "#", slashStar]⟩,
    ⟨"python", "Python", [".py"],
      [.verbatim "\"\"\"" "\"\"\"", .verbatim "'''" "'''", doubleQuoted, singleQuoted, .line "#"]⟩,
    ⟨"ruby", "Ruby", [".rb"],
      [doubleQuoted, singleQuoted, .line "#", .anchored "=begin" "=end"]⟩,
    ⟨"rust", "Rust", [".rs"], cStyle⟩,
    ⟨"scala", "Scala", [".scala"], cStyle⟩,
    ⟨"swift", "Swift", [".swift"],
      [doubleQuoted, .line "//", .nestedWithMargin "/*" "*/" "*"]⟩,
    ⟨"typescript", "TypeScript", [".ts", ".tsx"], scriptStyle⟩,
    ⟨"zig", "Zig", [".zig"], [doubleQuoted, .line "///", .line "//"]⟩]

end Builtin

end CommentBlocks

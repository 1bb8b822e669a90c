import LiveLint.SourceKind

/-!
# Starter texts

What the buffers hold before anything is typed: a C program and a build configuration for it, in
which nothing is found.
-/

namespace LiveLint.Starter

/-- The C program. -/
def cText : String :=
  String.intercalate "\n"
    ["#include <stdio.h>",
     "",
     "int main(void) \x7b",
     "  printf(\"Hello Steel\\n\");",
     "  fflush(stdout);",
     "  return 0;",
     "\x7d"]

/-- The build configuration. -/
def buildconfText : String :=
  String.intercalate "\n"
    ["!muf 4",
     "",
     "[workspace]",
     "  .set name \"demo\"",
     "  .set root \".\"",
     "  .set target_dir \"target\"",
     "  .set profile \"debug\"",
     "..",
     "",
     "[profile debug]",
     "  .set mode \"debug\"",
     "..",
     "",
     "[tool cc]",
     "  .exec \"cc\"",
     "..",
     "",
     "[bake build]",
     "  .make c_src cglob \"src/**/*.c\"",
     "  [run cc]",
     "    .takes c_src as \"@args\"",
     "    .set \"-O2\" 1",
     "    .set \"-g\" 1",
     "    .emits exe as \"-o\"",
     "  ..",
     "  .output exe \"target/out/app.exe\"",
     "..",
     "",
     "[export]",
     "  .ref build",
     "..",
     ""]

/-- The starter text of a kind. -/
def text : SourceKind → String
  | .c => cText
  | .buildconf => buildconfText

end LiveLint.Starter

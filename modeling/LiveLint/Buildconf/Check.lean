import LiveLint.Buildconf.Check.Header
import LiveLint.Buildconf.Check.Reference
import LiveLint.Buildconf.Check.Workspace

/-!
# Checking build configurations

Each check asks its own questions of the document and none depends on what another found. Findings
come in the order of the checks; inside one check, in the order of the lines it walks. Any text is
a document, so any text has findings, if only none.
-/

namespace LiveLint.Buildconf

/-- Everything found in a document, in the order of the checks. -/
def documentFindings (doc : Document) : List Finding :=
  headerFindings doc ++ workspaceFindings doc ++ presenceFindings doc ++ bakeFindings doc ++
  outputFindings doc ++ toolFindings doc ++ runFindings doc ++ referenceFindings doc ++
  sourceFindings doc ++ renamingFindings doc ++ layoutFindings doc

/-- Everything found in a build configuration. -/
def findings (cs : List Char) : List Finding :=
  documentFindings (Document.parse cs)

/-- The diagnostics of a build configuration, in the order of the checks. -/
def analyze (source : String) : List Diagnostic :=
  (findings source.toList).map Finding.diagnostic

end LiveLint.Buildconf

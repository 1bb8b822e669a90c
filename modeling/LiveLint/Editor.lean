import LiveLint.Language.Profile
import LiveLint.Marker

/-!
# Editors

What a workspace sees of an editor: a text that its user changes at any time, the markers it was
last given, and what it was told of the language when it was attached.
-/

namespace LiveLint

/-- An editor that is attached to a buffer, or can be. -/
structure Editor where
  text : String
  /-- The markers it shows. -/
  markers : List Marker
  /-- How often it was given markers. -/
  markerUpdates : Nat
  /-- The id of the language it was told of, if it was. -/
  language : Option String
  /-- How many candidates for completion it was told of. -/
  candidateCount : Nat
deriving DecidableEq, Repr

namespace Editor

/-- A new editor that holds a text. -/
def ofText (text : String) : Editor := ⟨text, [], 0, none, 0⟩

/-- The editor with another text. -/
def withText (e : Editor) (text : String) : Editor :=
  { e with text }

/-- The editor with other markers. -/
def showing (e : Editor) (markers : List Marker) : Editor :=
  { e with markers, markerUpdates := e.markerUpdates + 1 }

/-- The editor with what a profile tells. -/
def learn (e : Editor) (profile : Language.Profile) : Editor :=
  { e with
    language := some profile.id
    candidateCount := profile.vocabulary.candidates.length }

end Editor

end LiveLint

/-!
# Bytes

The length of a text in UTF-8. Editors and completion lists name places by their byte, while
columns count characters; a character takes one byte to four.
-/

namespace LiveLint.Text

/-- The length of a text in bytes. -/
def byteLength : List Char → Nat
  | [] => 0
  | c :: r => c.utf8Size + byteLength r

@[simp] theorem byteLength_nil : byteLength [] = 0 := rfl

@[simp] theorem byteLength_cons (c : Char) (r : List Char) :
    byteLength (c :: r) = c.utf8Size + byteLength r := rfl

@[simp] theorem byteLength_append (cs ds : List Char) :
    byteLength (cs ++ ds) = byteLength cs + byteLength ds := by
  induction cs with
  | nil => simp
  | cons c r ih => simp [ih, Nat.add_assoc]

end LiveLint.Text

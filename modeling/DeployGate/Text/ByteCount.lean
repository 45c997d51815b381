/-!
# Byte counts

Places in a text are counted in the bytes of its UTF-8 form.
-/

namespace DeployGate.Text

def byteCount (text : List Char) : Nat := text.foldr (fun c count => c.utf8Size + count) 0

end DeployGate.Text

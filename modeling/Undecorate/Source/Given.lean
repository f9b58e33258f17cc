import Undecorate.Fault.Checked
import Undecorate.Source.Range

/-! # Ranges from given values

A range can be given field by field, with every number in one of the forms that whole numbers may
be given in. The lines have to be given; columns and offsets may be left out.
-/

namespace Undecorate.SourceRange

/-- Reads a range from named values; other names are passed over. -/
def ofFields (fields : List (Text × Data)) : Except (List Issue) SourceRange :=
  let read (d : Data) := d.scalar.readInt
  Checked.result (SourceRange.mk <$> Checked.needed fields "start_line" read
    <*> Checked.needed fields "end_line" read <*> Checked.optional fields "start_column" read
    <*> Checked.optional fields "end_column" read <*> Checked.optional fields "start_byte" read
    <*> Checked.optional fields "end_byte" read)

end Undecorate.SourceRange

import ApiModel.Json.Writer

/-!
# Formats of output

Data is shown as JSON or plainly. A table is a list of records in JSON, one for each row, and
lines of cells with tabs between them if it is plain. The format `auto` means plain, because the
output is not looked at by a terminal.
-/

namespace ApiModel.Output

/-- A format of output. -/
inductive Format where
  | auto
  | json
  | plain
  | rich
  deriving DecidableEq, Repr, Inhabited

namespace Format

/-- The word for a format. -/
def label : Format → String
  | auto => "auto"
  | json => "json"
  | plain => "plain"
  | rich => "rich"

/-- The format with the given word. -/
def ofLabel? (word : String) : Option Format := [auto, json, plain, rich].find? (·.label = word)

/-- The format that is used for a format that was asked for. -/
def resolve : Format → Format
  | auto => plain
  | f => f

end Format

/-- A text on a line of its own. -/
def line (text : String) : String := text ++ "\n"

mutual

/-- A node with texts in place of dates. -/
def dateless : Node → Node
  | .scalar (.date d) => .text d.iso
  | .scalar (.timestamp t) => .text (t.iso " ")
  | .scalar s => .scalar s
  | .list items => .list (datelessItems items)
  | .map entries => .map (datelessEntries entries)

/-- Nodes with texts in place of dates. -/
def datelessItems : List Node → List Node
  | [] => []
  | n :: rest => dateless n :: datelessItems rest

/-- Entries with texts in place of dates in their values. -/
def datelessEntries : List (Scalar × Node) → List (Scalar × Node)
  | [] => []
  | (k, v) :: rest => (k, dateless v) :: datelessEntries rest

end

/-- The style in which data is shown. -/
def style : Json.Style := { indent := some 2, ascii := false }

/-- A node as JSON. A key that has no JSON form leaves nothing to show. -/
def jsonText (n : Node) : String :=
  match Json.write style (dateless n) with
  | .ok text => text
  | .error _ => ""

/-- A row as a record under the given headers. -/
def record (headers row : List String) : Node :=
  .ofEntries ((headers.zip row).map fun (h, cell) => (.text h, .text cell))

/-- The lines of a table: one for each row below the headers, or the records as JSON. The text of
the records is written at once, whatever line feeds are in it. -/
def tableLines (format : Format) (headers : List String) (rows : List (List String)) :
    List String :=
  match format with
  | .json => [jsonText (.list (rows.map (record headers)))]
  | _ => (headers :: rows).map ("\t".intercalate ·)

/-- A table, ready to be shown. -/
def tableText (format : Format) (headers : List String) (rows : List (List String)) : String :=
  String.join ((tableLines format headers rows).map line)

/-- An error message, ready to be shown. -/
def errorText (message : String) : String := line ("Error: " ++ message)

end ApiModel.Output

import ApiOutline.Show.Width

/-!
# Tables

A table is drawn with a heavy frame around its head and light lines below. Its columns are as wide
as their widest cells. If that is more than the terminal has, the widest columns give way first,
and their cells are broken into lines.
-/

namespace ApiOutline.Show

/-- A table: the heads of its columns, its rows, and a title. -/
structure Table where
  heads : List String
  rows : List (List String)
  title : Option String
  deriving Repr, DecidableEq

namespace Table

/-- The number of columns: a row may have more cells than there are heads. -/
def columnCount (t : Table) : Nat :=
  (t.heads.length :: t.rows.map List.length).foldl max 0

/-- The characters of a text that can be drawn. -/
def drawable (s : String) : List Char := s.toList.filter fun c => !movesCursor c

/-- A row with all its cells. -/
def fullRow (n : Nat) (row : List String) : List (List Char) :=
  row.map drawable ++ List.replicate (n - row.length) []

/-- The cells that a text takes where it is not broken. -/
def naturalWidth (cs : List Char) : Nat :=
  ((Text.splitOn '\n' cs).map width).foldl max 0

/-- The widths of the columns of some rows, with a space on either side. -/
def naturalWidths (n : Nat) (rows : List (List (List Char))) : List Nat :=
  (List.range n).map fun i => (rows.map fun r => naturalWidth (r.getD i [])).foldl max 0 + 2

/-- A quotient rounded to the nearest integer, halves to the even one. -/
def roundDiv (a b : Nat) : Nat :=
  let q := a / b
  let twice := 2 * (a % b)
  if twice < b then q else if b < twice then q + 1 else q + q % 2

/-- Takes `total` away from those values whose ratio is not zero, as evenly as the ratios say and
no more than the limits. -/
def reduce : Nat → Nat → List (Nat × Nat × Nat) → List Nat
  | _, _, [] => []
  | total, ratios, (ratio, limit, value) :: rest =>
      if 0 < ratio ∧ 0 < ratios then
        let taken := min limit (roundDiv (ratio * total) ratios)
        (value - taken) :: reduce (total - taken) (ratios - ratio) rest
      else value :: reduce total ratios rest

def reduceBy (total : Nat) (items : List (Nat × Nat × Nat)) : List Nat :=
  let items := items.map fun (ratio, limit, value) => (if limit = 0 then 0 else ratio, limit, value)
  let ratios := sum (items.map (·.1))
  if ratios = 0 then items.map (·.2.2) else reduce total ratios items

/-- Narrows the widest columns until all fit or are equally wide. -/
def narrow (limit : Nat) : Nat → List Nat → List Nat
  | 0, ws => ws
  | fuel + 1, ws =>
      let excess := sum ws - limit
      let widest := ws.foldl max 0
      let second := (ws.filter (· != widest)).foldl max 0
      if excess = 0 ∨ widest = second then ws
      else
        let step := min excess (widest - second)
        narrow limit fuel (reduceBy excess (ws.map fun w => (if w = widest then 1 else 0, step, w)))

/-- The widths of columns that fit into a number of cells. -/
def fitted (limit : Nat) (ws : List Nat) : List Nat :=
  if sum ws ≤ limit then ws
  else
    let ws := narrow limit (sum ws + 1) ws
    if sum ws ≤ limit then ws else reduceBy (sum ws - limit) (ws.map fun w => (1, w, w))

/-- A line of a frame. -/
def rule (left fill joint right : Char) (ws : List Nat) : List Char :=
  [left] ++ [joint].intercalate (ws.map fun w => List.replicate w fill) ++ [right]

/-- How a head or a title is emphasised. -/
def bold (isStyled : Bool) (cs : List Char) : List Char :=
  if isStyled && !cs.isEmpty then "\x1b[1m".toList ++ cs ++ "\x1b[0m".toList else cs

def italic (isStyled : Bool) (cs : List Char) : List Char :=
  if isStyled && !cs.isEmpty then "\x1b[3m".toList ++ cs ++ "\x1b[0m".toList else cs

/-- The lines of a cell, each as wide as its column allows. -/
def cellLines (w : Nat) (cell : List Char) : List (List Char) :=
  (wrapped false (w - 2) cell).map fun l => padded (w - 2) (shortened (w - 2) l)

/-- A cell as high as its row, with empty lines above it or below. -/
def cellParts (style : List Char → List Char) (atBottom : Bool) (height w : Nat)
    (lines : List (List Char)) : List (List Char) :=
  let drawn := lines.map fun l => style [' '] ++ style l ++ style [' ']
  let blank := List.replicate (height - lines.length) (style (spaces w))
  if atBottom then blank ++ drawn else drawn ++ blank

/-- The lines of a row. -/
def rowLines (bar : Char) (style : List Char → List Char) (atBottom : Bool) (ws : List Nat)
    (row : List (List Char)) : List (List Char) :=
  let columns := (ws.zip row).map fun (w, cell) => (w, cellLines w cell)
  let height := (columns.map fun c => c.2.length).foldl max 1
  let parts := columns.map fun (w, lines) => cellParts style atBottom height w lines
  (List.range height).map fun i =>
    [bar] ++ [bar].intercalate (parts.map fun p => p.getD i []) ++ [bar]

/-- The lines of a table on a terminal with some cells in a row. -/
def lines (limit : Nat) (isStyled : Bool) (t : Table) : List (List Char) :=
  let n := t.columnCount
  if n = 0 then [[]]
  else
    let head := fullRow n t.heads
    let rows := t.rows.map (fullRow n)
    let ws := fitted (limit - (n + 1)) (naturalWidths n (head :: rows))
    let total := sum ws + n + 1
    let title :=
      match t.title with
      | none => []
      | some s =>
          if s.isEmpty then []
          else
            (wrapped true total (drawable s)).map fun l =>
              italic isStyled (centred total (trimEnd l))
    title ++ [rule '┏' '━' '┳' '┓' ws] ++ rowLines '┃' (bold isStyled) true ws head ++
      [rule '┡' '━' '╇' '┩' ws] ++ rows.flatMap (rowLines '│' id false ws) ++
      [rule '└' '─' '┴' '┘' ws]

/-- The text of a table. -/
def render (limit : Nat) (isStyled : Bool) (t : Table) : String :=
  String.ofList ((t.lines limit isStyled).flatMap fun l => l ++ ['\n'])

end Table

end ApiOutline.Show

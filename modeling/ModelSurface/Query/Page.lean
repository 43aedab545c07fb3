import ModelSurface.Record
import ModelSurface.Text.Base62

/-!
Pages cut out of a filtered and sorted result. A cursor is the position of a record in base 62.
-/

namespace ModelSurface

structure PageInfo where
  hasNextPage : Bool
  hasPreviousPage : Bool
  startCursor : Option String
  endCursor : Option String
deriving DecidableEq, Repr

structure Page where
  items : List Record
  /-- The size of the whole result. -/
  totalCount : Nat
  info : PageInfo

namespace Page

def slice (records : List Record) (offset size : Nat) : Page :=
  let total := records.length
  let start := min offset total
  let stop := min (start + size) total
  let items := (records.drop start).take (stop - start)
  let cursor (position : Nat) : Option String :=
    if items.isEmpty then none else some (Text.Base62.encode position)
  { items := items
    totalCount := total
    info :=
      { hasNextPage := stop < total
        hasPreviousPage := 0 < start
        startCursor := cursor start
        endCursor := cursor (stop - 1) } }

def cursorJson : Option String → Json
  | some cursor => .str cursor
  | none => .null

def toJson (page : Page) : Json :=
  Json.object
    [("items", .arr (page.items.map Record.toJson)),
      ("total_count", Json.ofNat page.totalCount),
      ("page_info", Json.object
        [("has_next_page", .bool page.info.hasNextPage),
          ("has_previous_page", .bool page.info.hasPreviousPage),
          ("start_cursor", cursorJson page.info.startCursor),
          ("end_cursor", cursorJson page.info.endCursor)])]

end Page

end ModelSurface

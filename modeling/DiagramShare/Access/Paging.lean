/-!
Pages of listings. A page is asked for by number and size; what is out of range is moved to the
nearest number in range, so that every request names a page.
-/
namespace DiagramShare.Access

def maxPageSize : Int := 100

def defaultPageSize : Int := 10

def maxCount : Int := 9223372036854775807

def clamp (lo hi n : Int) : Int := max lo (min hi n)

/-- A page as a client asks for it. -/
structure PageQuery where
  page : Option Int
  limit : Option Int
  deriving DecidableEq

structure Page where
  number : Int
  limit : Int
  deriving DecidableEq

def PageQuery.normalize (q : PageQuery) : Page :=
  ⟨max 1 (q.page.getD 1), clamp 1 maxPageSize (q.limit.getD defaultPageSize)⟩

/-- How many rows stand on the pages before this one. The count stops at `maxCount`. -/
def Page.offset (p : Page) : Int := min maxCount ((p.number - 1) * p.limit)

/-- One page of a listing, with the number of all its rows. -/
structure Listing (α : Type) where
  data : List α
  total : Int
  page : Page

/-- A window of rows with its size and its start in range. -/
def clampWindow (limit offset : Int) : Int × Int := (clamp 1 maxPageSize limit, max 0 offset)

end DiagramShare.Access

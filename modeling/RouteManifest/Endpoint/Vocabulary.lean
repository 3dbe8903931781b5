/-!
The reserved node names that scripts are searched for. Every name can be replaced
by the settings of a tree; the defaults are given with the fields.
-/

namespace RouteManifest

structure Vocabulary where
  arguments : String := ".arguments"
  description : String := ".description"
  ticketVerify : String := "auth.ticket.verify"
  isStatistics : String := ".is-statistics"
  /-- The names of the instruction that invokes a slot and waits for it. -/
  invokeSlots : List String := ["wait.signal", "signal"]
  /-- The instructions that open a database connection, one for each dialect. -/
  sqlConnects : List String := ["wait.mysql.connect", "wait.mssql.connect", "wait.pgsql.connect"]
  selectSuffix : String := ".select"
  /-- The column that marks a counting query. -/
  countColumn : String := "count(*) as count"
deriving DecidableEq, Repr, Inhabited

namespace Vocabulary

def isInvokeSlot (vocabulary : Vocabulary) (name : String) : Bool :=
  vocabulary.invokeSlots.contains name

def isSqlConnect (vocabulary : Vocabulary) (name : String) : Bool :=
  vocabulary.sqlConnects.contains name

end Vocabulary

end RouteManifest

namespace Naming.Log

/-- How much an event matters, the most important level first. -/
inductive Level where
  | error
  | warn
  | info
  | debug
  | trace
deriving DecidableEq

namespace Level

def rank : Level → Nat
  | error => 1
  | warn => 2
  | info => 3
  | debug => 4
  | trace => 5

def name : Level → String
  | error => "error"
  | warn => "warn"
  | info => "info"
  | debug => "debug"
  | trace => "trace"

end Level

/-- The part of the program that an event comes from. -/
inductive Source where
  | program
  | command
  | globalSettings
  | service
  | context
  | request
  | activation
  | disk
deriving DecidableEq

/-- The target under which filters know the part. -/
def Source.target : Source → String
  | program => "namestore"
  | command => "namestore::cli::route"
  | globalSettings => "namestore::config::sources::global_file"
  | service => "namestore::service"
  | context => "namestore::naming"
  | request => "namestore::dispatch"
  | activation => "namestore::activator"
  | disk => "namestore::store::persistence"

inductive Value where
  | text (s : String)
  | number (n : Nat)
  | flag (b : Bool)
deriving DecidableEq

structure Event where
  level : Level
  source : Source
  message : String
  fields : List (String × Value) := []
deriving DecidableEq

end Naming.Log

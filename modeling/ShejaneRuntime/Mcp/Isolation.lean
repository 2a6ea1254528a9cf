import ShejaneRuntime.Mcp.Tasks

/-!
# Runs do not take each other's tools

What the catalog offers is a function of the actions without the servers that
runs disable, while no refresh disables a configured server.
-/

namespace ShejaneRuntime.Mcp

open Lib

/-! ## What is offered -/

variable {c c' : Catalog}

variable {s s' : State}

def oneServer : Config := [("search", some "sha256:aa")]

/-- The server is opened, and then a run that disables some servers has the
catalog acquired and refreshed. -/
def opening (disabled : List String) : List Action :=
  [.refresh [], .load 0 oneServer 0, .opened 0 "search" (.ok ["search_web"]), .install 0 0,
    .install 0 0, .beginStop 0, .finishStop 0, .acquire oneServer disabled true]

/-- A refresh that disables the server. -/
def refreshing (disabled : List String) : List Action :=
  opening [] ++ [.refresh disabled, .load 2 oneServer 0]

end ShejaneRuntime.Mcp

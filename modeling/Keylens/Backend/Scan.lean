import Keylens.Backend.Messages

/-!
# Scanning the keyspace

The worker owns the scanner.  A `Rescan` opens a new one and a `More` continues
it; both answer with one batch, gathered page by page, or with an error.  What
lies outside the worker is in `Scene`: the scanner that the connection opens for
a filter, and the connection that types the keys of the batch.
-/

namespace Keylens.Backend

open Keylens.Library Keylens.Connection

/-- Keys to gather before returning a batch to the UI. -/
def batchTarget : Nat := 500

/-- Hard cap on pages per batch. -/
def maxPagesPerBatch : Nat := 40

def scanCount : Nat := 500

/-- Cap on each typing pipeline. -/
def maxTyped : Nat := 1000

/-- A keyspace scan: the pages and errors it still has to yield.  Once they are
used up it has come to its end. -/
structure KeyScanner where
  pages : List (Except ClientError (List Str))

/-- The next page, or `none` at the end. -/
def KeyScanner.nextPage : KeyScanner → Result (Option (List Str)) × KeyScanner
  | ⟨[]⟩ => (.ok none, ⟨[]⟩)
  | ⟨.ok page :: rest⟩ => (.ok (some page), ⟨rest⟩)
  | ⟨.error source :: rest⟩ => (.error (.command .scan source), ⟨rest⟩)

/-- The part of the worker that scans. -/
structure Worker where
  scanner : Option KeyScanner := none
  pattern : Option Str := none
  kind : Option Kind := none
  complete : Bool := false

/-- What a scanning request meets outside the worker. -/
structure Scene where
  conn : Conn
  /-- `Conn::key_scanner`, by pattern, count and type filter. -/
  keyScanner : Option Str → Nat → Option Str → KeyScanner

namespace Worker

def serverTypeFilter (worker : Worker) (conn : Conn) : Option Str :=
  (worker.kind.filter fun _ => conn.capabilities.has .scanTypeFilter).map Kind.label

/-- The type of each key, one slot per key. -/
def keyKinds (conn : Conn) (keys : List Str) : List (Result Value) :=
  (chunks maxTyped keys).flatMap fun chunk =>
    match conn.pipeline (chunk.map fun key => (.type, [.string key])) with
    | .ok replies => replies
    | .error _ =>
        List.replicate chunk.length (.error (.reply .type "typing batch failed".toList))

/-- Resolve each key's type; with a type filter, keys of other types are left
out. -/
def typeKeys (worker : Worker) (conn : Conn) (keys : List Str) : List (Str × Option Kind) :=
  match worker.kind.filter fun _ => conn.capabilities.has .scanTypeFilter with
  | some kind => keys.map fun key => (key, some kind)
  | none =>
      if keys.isEmpty then []
      else
        let kinds := keyKinds conn keys
        keys.zipIdx.filterMap fun (key, i) =>
          let kind := ((kinds[i]?).bind Except.toOption).map fun reply =>
            Kind.parse (conn.client.api.displayString reply)
          if worker.kind.any fun wanted => kind ≠ some wanted then none else some (key, kind)

/-- The loop of `scan_batch`, with the pages that may still be asked for, the
keys so far and the number of pages so far. -/
def gather (worker : Worker) : Nat → List Str → Nat → Result (List Str × Nat) × Worker
  | 0, keys, pages => (.ok (keys, pages), worker)
  | left + 1, keys, pages =>
      if keys.length < batchTarget ∧ worker.complete = false then
        match worker.scanner with
        -- No `Rescan` has been handled yet.
        | none => (.ok (keys, pages), { worker with complete := true })
        | some scanner =>
            match scanner.nextPage with
            | (.ok (some page), scanner) =>
                gather { worker with scanner := some scanner } left (keys ++ page) (pages + 1)
            | (.ok none, scanner) =>
                (.ok (keys, pages), { worker with scanner := some scanner, complete := true })
            | (.error error, scanner) => (.error error, { worker with scanner := some scanner })
      else (.ok (keys, pages), worker)

def scanBatch (worker : Worker) (conn : Conn) (reset : Bool) : Worker × Update :=
  match worker.gather maxPagesPerBatch [] 0 with
  | (.error error, worker) => (worker, .error error.text)
  | (.ok (keys, pages), worker) =>
      (worker, .batch (worker.typeKeys conn keys) reset worker.complete pages)

/-- Open the scanner of a new filter. -/
def openScan (worker : Worker) (scene : Scene) (pattern : Option Str) (kind : Option Kind) :
    Worker :=
  let worker := { worker with pattern, kind, complete := false }
  { worker with
    scanner := some (scene.keyScanner worker.pattern scanCount
      (worker.serverTypeFilter scene.conn)) }

/-- Start over with a new filter. -/
def rescan (worker : Worker) (scene : Scene) (pattern : Option Str) (kind : Option Kind) :
    Worker × Update :=
  (worker.openScan scene pattern kind).scanBatch scene.conn true

/-- Continue the current scan. -/
def more (worker : Worker) (scene : Scene) : Worker × Update :=
  worker.scanBatch scene.conn false

end Worker

end Keylens.Backend

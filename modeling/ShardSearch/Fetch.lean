import ShardSearch.Json.Basic

/-!
Computations that read JSON resources. A computation is a tree: it is done with a value, or it reads
an address and goes on with the answer, which is the body of the resource, or nothing if the read
failed. `run` gives the value and `reads` the addresses, in order, when every read of an address
gets the same answer; whoever drives the tree one read at a time may also change the answers between
reads.
-/

set_option autoImplicit false

namespace ShardSearch

inductive Fetch (α : Type) where
  | done (a : α)
  | read (url : String) (next : Option Json → Fetch α)

namespace Fetch

variable {α β γ : Type}

def bind : Fetch α → (α → Fetch β) → Fetch β
  | done a, f => f a
  | read url next, f => read url fun answer ↦ (next answer).bind f

instance : Monad Fetch where
  pure := done
  bind := bind

@[simp] theorem pure_eq (a : α) : (pure a : Fetch α) = done a := rfl

@[simp] theorem bind_eq (m : Fetch α) (f : α → Fetch β) : m >>= f = m.bind f := rfl

theorem bind_done (m : Fetch α) : m.bind done = m := by
  induction m with
  | done a => rfl
  | read url next ih => simp only [bind, ih]

theorem bind_assoc (m : Fetch α) (f : α → Fetch β) (g : β → Fetch γ) :
    (m.bind f).bind g = m.bind fun a ↦ (f a).bind g := by
  induction m with
  | done a => rfl
  | read url next ih => simp only [bind, ih]

instance : LawfulMonad Fetch := LawfulMonad.mk' Fetch
  (fun m ↦ bind_done m)
  (fun _ _ ↦ rfl)
  (fun m f g ↦ bind_assoc m f g)

/-- The answer of one resource. -/
def get (url : String) : Fetch (Option Json) := read url done

/-- One computation for each item, one after the other; `before` holds the values of the items
before them, last first. -/
def eachAfter (f : α → Fetch β) (before : List β) : List α → Fetch (List β)
  | [] => done before.reverse
  | a :: rest => (f a).bind fun b ↦ eachAfter f (b :: before) rest

def each (f : α → Fetch β) (items : List α) : Fetch (List β) := eachAfter f [] items

def run (answer : String → Option Json) : Fetch α → α
  | done a => a
  | read url next => (next (answer url)).run answer

/-- The value when the answers come from a monad, asked for in the order of the reads. -/
def runIn {m : Type → Type} [Monad m] (answer : String → m (Option Json)) : Fetch α → m α
  | done a => pure a
  | read url next => do
    let body ← answer url
    (next body).runIn answer

def reads (answer : String → Option Json) : Fetch α → List String
  | done _ => []
  | read url next => url :: (next (answer url)).reads answer

@[simp] theorem run_done (answer : String → Option Json) (a : α) :
    (done a : Fetch α).run answer = a := rfl

@[simp] theorem reads_done (answer : String → Option Json) (a : α) :
    (done a : Fetch α).reads answer = [] := rfl

@[simp] theorem run_get (answer : String → Option Json) (url : String) :
    (get url).run answer = answer url := rfl

@[simp] theorem reads_get (answer : String → Option Json) (url : String) :
    (get url).reads answer = [url] := rfl

@[simp] theorem run_bind (answer : String → Option Json) (m : Fetch α) (f : α → Fetch β) :
    (m.bind f).run answer = (f (m.run answer)).run answer := by
  induction m with
  | done a => rfl
  | read url next ih => exact ih (answer url)

@[simp] theorem reads_bind (answer : String → Option Json) (m : Fetch α) (f : α → Fetch β) :
    (m.bind f).reads answer = m.reads answer ++ (f (m.run answer)).reads answer := by
  induction m with
  | done a => rfl
  | read url next ih => simp only [bind, reads, run, ih, List.cons_append]

theorem run_eachAfter (answer : String → Option Json) (f : α → Fetch β) (before : List β)
    (items : List α) : (eachAfter f before items).run answer =
      before.reverse ++ items.map fun a ↦ (f a).run answer := by
  induction items generalizing before with
  | nil => simp [eachAfter]
  | cons a rest ih => simp [eachAfter, ih]

theorem reads_eachAfter (answer : String → Option Json) (f : α → Fetch β) (before : List β)
    (items : List α) : (eachAfter f before items).reads answer =
      items.flatMap fun a ↦ (f a).reads answer := by
  induction items generalizing before with
  | nil => simp [eachAfter]
  | cons a rest ih => simp [eachAfter, ih]

@[simp] theorem run_each (answer : String → Option Json) (f : α → Fetch β) (items : List α) :
    (each f items).run answer = items.map fun a ↦ (f a).run answer := by
  simp [each, run_eachAfter]

@[simp] theorem reads_each (answer : String → Option Json) (f : α → Fetch β) (items : List α) :
    (each f items).reads answer = items.flatMap fun a ↦ (f a).reads answer :=
  reads_eachAfter answer f [] items

/-- A resource of a known form. -/
def typed (decode : Json → Option α) (url : String) : Fetch (Option α) :=
  (get url).bind fun body ↦ done (body.bind decode)

end Fetch

end ShardSearch

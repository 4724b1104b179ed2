import ShardSearch.Config.Text

/-!
The configuration file. Where there is none, loading writes the default configuration; a file that
is there is never changed by loading, whether it can be read or not. The root address may be
overridden for one run: the override is put into what was loaded and never into the file.

What is at the path of the file is a value here, and loading and saving give what is there
afterwards.
-/

set_option autoImplicit false

namespace ShardSearch.Config

/-- What is at a path. -/
inductive File where
  | absent
  /-- Nothing is there, nor the directory that it would be in. -/
  | unreachable
  | directory
  | content (bytes : ByteArray)

namespace File

/-- The text of a file, if its bytes are UTF-8. -/
def text? : File → Option String
  | content bytes => String.fromUTF8? bytes
  | _ => none

inductive Error where
  | unreadable
  | malformed
  | unwritable
deriving DecidableEq

def Error.message : Error → String
  | unreadable => "configuration error: Failed to read config file"
  | malformed => "configuration error: Failed to parse config file"
  | unwritable => "configuration error: Failed to write config file"

/-- The file after a text is written over it. -/
def write (text : String) : File → Except Error File
  | absent => .ok (content text.toUTF8)
  | content _ => .ok (content text.toUTF8)
  | unreachable => .error .unwritable
  | directory => .error .unwritable

def save (config : Config) (file : File) : Except Error File := file.write config.render

/-- What is at the path afterwards, and the configuration that is in it. -/
def loadStored : File → File × Except Error Config
  | directory => (directory, .error .unreadable)
  | content bytes => (content bytes,
      match String.fromUTF8? bytes with
      | none => .error .unreadable
      | some text => match parse? text with
        | none => .error .malformed
        | some config => .ok config)
  | missing =>
    match save {} missing with
    | .ok written => (written, .ok {})
    | .error e => (missing, .error e)

/-- A configuration with another root address, if one is given. -/
def withRoot (root : Option String) (config : Config) : Config :=
  match root with
  | some url => { config with source := { config.source with rootUrl := url } }
  | none => config

def load (root : Option String) (file : File) : File × Except Error Config :=
  let (after, loaded) := loadStored file
  (after, loaded.map (withRoot root))

/-- The path of the file: the one asked for, or `config.json` where the program runs. -/
inductive Location where
  | given (path : String)
  | inWorkingDirectory (name : String)
deriving DecidableEq

def location : Option String → Location
  | some path => .given path
  | none => .inWorkingDirectory "config.json"

end File

end ShardSearch.Config

import RequestFilter.Operator
import RequestFilter.Report

namespace RequestFilter

structure Settings where
  delimiter : String
  listSeparator : Char
  sortParam : String
  defaultOperator : Operator
  deriving DecidableEq, Repr

inductive SettingsFault where
  | emptyDelimiter
  | separatorInDelimiter (delimiter : String) (separator : Char)
  | blankSortParam
  | malformed
  | unreadable (path : String)
  deriving DecidableEq, Repr

namespace SettingsFault

def message : SettingsFault → String
  | emptyDelimiter => "delimiter must not be empty"
  | separatorInDelimiter delimiter separator =>
    "delimiter `" ++ delimiter ++ "` must not contain the list separator `" ++
      String.singleton separator ++ "`"
  | blankSortParam => "sort_param must not be blank"
  | malformed => "failed to parse TOML"
  | unreadable path => "failed to read config file: " ++ path

def failure (fault : SettingsFault) : Failure :=
  { Failure.invalidConfiguration fault.message with source := some fault.message }

end SettingsFault

namespace Settings

def standard : Settings := ⟨"__", ',', "sort", .eq⟩

def fault? (settings : Settings) : Option SettingsFault :=
  if settings.delimiter.isEmpty then some .emptyDelimiter
  else if settings.delimiter.toList.contains settings.listSeparator then
    some (.separatorInDelimiter settings.delimiter settings.listSeparator)
  else if Text.isBlankText settings.sortParam then some .blankSortParam
  else none

def checked (settings : Settings) : Except SettingsFault Settings :=
  match settings.fault? with
  | some fault => .error fault
  | none => .ok settings

end Settings

end RequestFilter

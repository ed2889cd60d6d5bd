import Perdition.Memory

/-!
# The MySQL map

`dbserver_get` of `perditiondb_mysql.c`. Writing behind `key_str_escaped` leaves no result.
-/
namespace Perdition.Mysql

/-- `PERDITIONDB_MYSQL_QUERY_LENGTH`. -/
def queryLength : Nat := 256

/-- The variables that `dbserver_init` sets. -/
structure Config where
  /-- `dbhosts_array`. -/
  dbhosts : List CString
  /-- `dbuser`. -/
  dbuser : CString
  /-- `dbpwd`. -/
  dbpwd : CString
  /-- `dbname`. -/
  dbname : CString
  /-- `dbport`. -/
  dbport : Nat
  /-- `dbtable`. -/
  dbtable : CString
  /-- `db_user_col`. -/
  dbUserCol : CString
  /-- `db_srv_col`. -/
  dbSrvCol : CString
  /-- `db_port_col`. -/
  dbPortCol : Option CString

/-- The MySQL client, as it answers. -/
structure Client where
  /-- `mysql_init`. -/
  init : Bool
  /-- `mysql_real_connect` to a host, for a user, a password, a database and a port. -/
  realConnect : CString → CString → CString → CString → Nat → Bool
  /-- What `mysql_real_escape_string` writes. -/
  escape : CString → CString
  /-- With the NUL it is at most `2*length+1` bytes long. -/
  escape_length : ∀ key, (escape key).length + 1 ≤ 2 * key.length + 1
  /-- `mysql_query` executes a statement, and is zero. -/
  query : CString → Bool
  /-- `mysql_store_result`, and the number of rows. -/
  storeResult : CString → Option Nat
  /-- `mysql_fetch_row`. -/
  fetchRow : CString → Option (Nat → Option CString)
  /-- `malloc`. -/
  malloc : Nat → Bool

/-- What `dbserver_get` does. -/
structure Outcome where
  /-- The statements given to `mysql_query`. -/
  executed : List CString
  /-- What it returns. -/
  status : Int
  /-- `*str_return` and `*len_return`, where it sets them. -/
  strReturn : Option CString
  lenReturn : Option Nat
  deriving DecidableEq

/-- `db_port_col && db_port_col[0]`. -/
def Config.portCol (config : Config) : Option CString := config.dbPortCol.filter (!·.isEmpty)

/-- The format of the query and its arguments. -/
def Config.statement (config : Config) (keyStrEscaped : CString) : CString :=
  match config.portCol with
  | some port =>
    lit "select " ++ config.dbUserCol ++ lit "," ++ config.dbSrvCol ++ lit "," ++ port ++
      lit " from " ++ config.dbtable ++ lit " where " ++ config.dbUserCol ++ lit "='" ++
      keyStrEscaped ++ lit "';"
  | none =>
    lit "select " ++ config.dbUserCol ++ lit "," ++ config.dbSrvCol ++ lit " from " ++
      config.dbtable ++ lit " where " ++ config.dbUserCol ++ lit "='" ++ keyStrEscaped ++ lit "';"

/-- `snprintf(str, size, ..)` of what the format makes: the string in the buffer, and the length that the
whole would have. It is negative where that is no `int`. -/
def snprintf (size : Nat) (whole : CString) : CString × Int :=
  (cstr (whole.content.take (size - 1)), if whole.length ≤ intMax then whole.length else -1)

/-- A row as the value of the map. -/
def rowValue (config : Config) (row : Nat → Option CString) (server : CString) : CString :=
  match config.portCol, row 2 with
  | some _, some port => if port.isEmpty then server else server ++ lit ":" ++ port
  | _, _ => server

/-- What follows `mysql_query`: the status, `*str_return` and `*len_return`. -/
def fetchValue (client : Client) (config : Config) (sqlstr : CString) :
    Int × Option CString × Option Nat :=
  match client.storeResult sqlstr with
  | none => (-3, none, none)
  | some 0 => (-2, none, none)
  | some _ =>
    match client.fetchRow sqlstr with
    | none => (-3, none, none)
    | some row =>
      match row 1 with
      | none => (-3, none, none)
      | some server =>
        if server.isEmpty then (-3, none, none)
        else
          let value := rowValue config row server
          let len := value.length + 1
          if client.malloc len then (0, some value, some len) else (-3, none, some len)

/-- A host of the array takes the connection. -/
def connected (client : Client) (config : Config) : Bool :=
  config.dbhosts.any fun host =>
    client.realConnect host config.dbuser config.dbpwd config.dbname config.dbport

/-- `dbserver_get`. -/
def dbserverGet (client : Client) (config : Config) (keyStr : CString) : Option Outcome :=
  if !client.init then some ⟨[], -1, none, none⟩
  else if !connected client config then some ⟨[], -1, none, none⟩
  else
    let keyStrEscaped := client.escape keyStr
    if 2 * queryLength + 1 < keyStrEscaped.length + 1 then none
    else
      let (sqlstr, written) := snprintf queryLength (config.statement keyStrEscaped)
      if written < 0 then some ⟨[], -3, none, none⟩
      else if !client.query sqlstr then some ⟨[sqlstr], -1, none, none⟩
      else
        let (status, strReturn, lenReturn) := fetchValue client config sqlstr
        some ⟨[sqlstr], status, strReturn, lenReturn⟩

end Perdition.Mysql

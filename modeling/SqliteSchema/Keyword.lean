namespace SqliteSchema

/-- The keywords of the dialect. A keyword is no token of its own kind: it is a word that is
compared, in any letter case, where the grammar asks for it. -/
inductive Keyword
  | ABORT | ACTION | ALL | ALWAYS | AND | AS | ASC | AUTOINCREMENT | BETWEEN | BY | CASCADE
  | CASE | CAST | CHECK | COLLATE | CONFLICT | CONSTRAINT | CREATE | CROSS | CURRENT
  | CURRENT_DATE | CURRENT_TIME | CURRENT_TIMESTAMP | DEFAULT | DEFERRABLE | DEFERRED | DELETE
  | DESC | DISTINCT | ELSE | END | ESCAPE | EXCEPT | EXCLUDE | EXISTS | FAIL | FALSE | FILTER
  | FIRST | FOLLOWING | FOREIGN | FROM | FULL | GENERATED | GLOB | GROUP | GROUPS | HAVING | IF
  | IGNORE | IMMEDIATE | IN | INDEXED | INITIALLY | INNER | INTERSECT | IS | ISNULL | JOIN | KEY
  | LAST | LEFT | LIKE | LIMIT | MATCH | NATURAL | NO | NOT | NOTNULL | NULL | NULLS | OFFSET
  | ON | OR | ORDER | OTHERS | OUTER | OVER | PARTITION | PRECEDING | PRIMARY | RAISE | RANGE
  | REFERENCES | REGEXP | REPLACE | RESTRICT | RIGHT | ROLLBACK | ROW | ROWID | ROWS | SELECT
  | SET | STORED | STRICT | TABLE | TEMP | TEMPORARY | THEN | TIES | TRUE | UNBOUNDED | UNION
  | UNIQUE | UPDATE | USING | VIRTUAL | WHEN | WHERE | WINDOW | WITH | WITHOUT
  deriving DecidableEq, Repr

namespace Keyword

/-- Every keyword, in alphabetical order. -/
def all : List Keyword :=
  [.ABORT, .ACTION, .ALL, .ALWAYS, .AND, .AS, .ASC, .AUTOINCREMENT, .BETWEEN, .BY, .CASCADE,
   .CASE, .CAST, .CHECK, .COLLATE, .CONFLICT, .CONSTRAINT, .CREATE, .CROSS, .CURRENT,
   .CURRENT_DATE, .CURRENT_TIME, .CURRENT_TIMESTAMP, .DEFAULT, .DEFERRABLE, .DEFERRED, .DELETE,
   .DESC, .DISTINCT, .ELSE, .END, .ESCAPE, .EXCEPT, .EXCLUDE, .EXISTS, .FAIL, .FALSE, .FILTER,
   .FIRST, .FOLLOWING, .FOREIGN, .FROM, .FULL, .GENERATED, .GLOB, .GROUP, .GROUPS, .HAVING, .IF,
   .IGNORE, .IMMEDIATE, .IN, .INDEXED, .INITIALLY, .INNER, .INTERSECT, .IS, .ISNULL, .JOIN,
   .KEY, .LAST, .LEFT, .LIKE, .LIMIT, .MATCH, .NATURAL, .NO, .NOT, .NOTNULL, .NULL, .NULLS,
   .OFFSET, .ON, .OR, .ORDER, .OTHERS, .OUTER, .OVER, .PARTITION, .PRECEDING, .PRIMARY, .RAISE,
   .RANGE, .REFERENCES, .REGEXP, .REPLACE, .RESTRICT, .RIGHT, .ROLLBACK, .ROW, .ROWID, .ROWS,
   .SELECT, .SET, .STORED, .STRICT, .TABLE, .TEMP, .TEMPORARY, .THEN, .TIES, .TRUE, .UNBOUNDED,
   .UNION, .UNIQUE, .UPDATE, .USING, .VIRTUAL, .WHEN, .WHERE, .WINDOW, .WITH, .WITHOUT]

/-- The spelling in small letters. -/
def text : Keyword → String
  | .ABORT => "abort"
  | .ACTION => "action"
  | .ALL => "all"
  | .ALWAYS => "always"
  | .AND => "and"
  | .AS => "as"
  | .ASC => "asc"
  | .AUTOINCREMENT => "autoincrement"
  | .BETWEEN => "between"
  | .BY => "by"
  | .CASCADE => "cascade"
  | .CASE => "case"
  | .CAST => "cast"
  | .CHECK => "check"
  | .COLLATE => "collate"
  | .CONFLICT => "conflict"
  | .CONSTRAINT => "constraint"
  | .CREATE => "create"
  | .CROSS => "cross"
  | .CURRENT => "current"
  | .CURRENT_DATE => "current_date"
  | .CURRENT_TIME => "current_time"
  | .CURRENT_TIMESTAMP => "current_timestamp"
  | .DEFAULT => "default"
  | .DEFERRABLE => "deferrable"
  | .DEFERRED => "deferred"
  | .DELETE => "delete"
  | .DESC => "desc"
  | .DISTINCT => "distinct"
  | .ELSE => "else"
  | .END => "end"
  | .ESCAPE => "escape"
  | .EXCEPT => "except"
  | .EXCLUDE => "exclude"
  | .EXISTS => "exists"
  | .FAIL => "fail"
  | .FALSE => "false"
  | .FILTER => "filter"
  | .FIRST => "first"
  | .FOLLOWING => "following"
  | .FOREIGN => "foreign"
  | .FROM => "from"
  | .FULL => "full"
  | .GENERATED => "generated"
  | .GLOB => "glob"
  | .GROUP => "group"
  | .GROUPS => "groups"
  | .HAVING => "having"
  | .IF => "if"
  | .IGNORE => "ignore"
  | .IMMEDIATE => "immediate"
  | .IN => "in"
  | .INDEXED => "indexed"
  | .INITIALLY => "initially"
  | .INNER => "inner"
  | .INTERSECT => "intersect"
  | .IS => "is"
  | .ISNULL => "isnull"
  | .JOIN => "join"
  | .KEY => "key"
  | .LAST => "last"
  | .LEFT => "left"
  | .LIKE => "like"
  | .LIMIT => "limit"
  | .MATCH => "match"
  | .NATURAL => "natural"
  | .NO => "no"
  | .NOT => "not"
  | .NOTNULL => "notnull"
  | .NULL => "null"
  | .NULLS => "nulls"
  | .OFFSET => "offset"
  | .ON => "on"
  | .OR => "or"
  | .ORDER => "order"
  | .OTHERS => "others"
  | .OUTER => "outer"
  | .OVER => "over"
  | .PARTITION => "partition"
  | .PRECEDING => "preceding"
  | .PRIMARY => "primary"
  | .RAISE => "raise"
  | .RANGE => "range"
  | .REFERENCES => "references"
  | .REGEXP => "regexp"
  | .REPLACE => "replace"
  | .RESTRICT => "restrict"
  | .RIGHT => "right"
  | .ROLLBACK => "rollback"
  | .ROW => "row"
  | .ROWID => "rowid"
  | .ROWS => "rows"
  | .SELECT => "select"
  | .SET => "set"
  | .STORED => "stored"
  | .STRICT => "strict"
  | .TABLE => "table"
  | .TEMP => "temp"
  | .TEMPORARY => "temporary"
  | .THEN => "then"
  | .TIES => "ties"
  | .TRUE => "true"
  | .UNBOUNDED => "unbounded"
  | .UNION => "union"
  | .UNIQUE => "unique"
  | .UPDATE => "update"
  | .USING => "using"
  | .VIRTUAL => "virtual"
  | .WHEN => "when"
  | .WHERE => "where"
  | .WINDOW => "window"
  | .WITH => "with"
  | .WITHOUT => "without"

/-- The spelling in capital letters, as messages show it. -/
def display (k : Keyword) : String := k.text.toUpper

/-- The keyword spelled by a word in small letters. -/
def ofText? (word : String) : Option Keyword := all.find? (·.text == word)

/-- Keywords that are never a bare column name inside an expression. -/
def reserved : List Keyword :=
  [.ALL, .AND, .AS, .BETWEEN, .CASE, .CAST, .CHECK, .COLLATE, .CONSTRAINT, .CREATE, .DEFAULT,
   .DISTINCT, .ELSE, .END, .ESCAPE, .EXCEPT, .EXISTS, .FOREIGN, .FROM, .GLOB, .GROUP, .HAVING,
   .IN, .INTERSECT, .IS, .ISNULL, .JOIN, .LIKE, .LIMIT, .NOT, .NOTNULL, .NULL, .OFFSET, .ON,
   .OR, .ORDER, .REFERENCES, .REGEXP, .SELECT, .THEN, .WHERE]

def isReserved (k : Keyword) : Bool := reserved.contains k

/-- Keywords that open a table constraint in a `CREATE TABLE` body. -/
def tableConstraints : List Keyword := [.CONSTRAINT, .PRIMARY, .UNIQUE, .CHECK, .FOREIGN]

theorem mem_all (k : Keyword) : k ∈ all := by cases k <;> decide

theorem ofText?_text (k : Keyword) : ofText? k.text = some k := by
  have h : ∀ k ∈ all, ofText? k.text = some k := by decide +kernel
  exact h k (mem_all k)

theorem text_of_ofText? {word : String} {k : Keyword} (h : ofText? word = some k) :
    k.text = word := by
  simpa using List.find?_some h

end Keyword

end SqliteSchema

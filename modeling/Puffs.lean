import Puffs.Token
import Puffs.Ast
import Puffs.Types
import Puffs.Checker
import Puffs.Check.Rules
import Puffs.Check.Expr
import Puffs.Check.Statement
import Puffs.Nodes
import Puffs.Frame
import Puffs.Writes
import Puffs.Infer
import Puffs.Consts
import Puffs.Operands
import Puffs.Vars
import Puffs.Errors
import Puffs.Statements
import Puffs.Reach
import Puffs.Reads
import Puffs.Jumps
import Puffs.Marks
import Puffs.WellFormed
import Puffs.Runs
import Puffs.Walk
import Puffs.Depth
import Puffs.ErrPos
import Puffs.Typing
